import SoloCall.Proofs.Dispatch.Success

namespace SoloCall

theorem Completion.exists_eq_outcome_iff {c : Completion} :
    (∃ o, c = .outcome o) ↔ c ≠ .brokenOff := by
  cases c <;> simp

theorem Nanos.isTellable_iff (clock : Nanos) (n : Nat) :
    isTellable (clock + ofSeconds n) = true ↔ clock / perSecond + n ≤ maxSeconds := by
  have hseconds : (clock + ofSeconds n) / perSecond = clock / perSecond + n :=
    Nat.add_mul_div_right clock n (by decide)
  rw [isTellable, decide_eq_true_iff, hseconds]

theorem Surroundings.runSequence_eq_none_iff (s : Surroundings) (steps : List Invocation)
    (limit : Nanos) (m : Machine) :
    (s.runSequence steps limit m).1 = none ↔
      ¬Nanos.isTellable ((s.pass m).clock + limit) = true := by
  rw [runSequence]
  split <;> simp_all

def Config.timeout (c : Config) (l : Language) : Nat :=
  if l.isCompiled then c.compileTimeout else c.scriptTimeout

namespace Dispatcher

open Driver

variable {d : Dispatcher} {s : Surroundings} {r : Request} {m : Machine} {p : Plan}

theorem limitFor_ofConfig (c : Config) (env : Environment) (l : Language) :
    (ofConfig c env).limitFor l = Nanos.ofSeconds (c.timeout l) := by
  rw [limitFor, Config.timeout]
  split <;> rfl

theorem isTellable_deadline_iff (c : Config) (env : Environment) (s : Surroundings) (r : Request)
    (p : Plan) (m : Machine) :
    Nanos.isTellable ((ofConfig c env).deadline s r p m) = true ↔
      (s.pass (written s p m)).clock / Nanos.perSecond + c.timeout r.language ≤ Nanos.maxSeconds := by
  rw [deadline, limitFor_ofConfig]
  exact Nanos.isTellable_iff _ _

/-- A plan is broken off only between the writing of its driver and its first program. -/
theorem buildAndRun_eq_brokenOff_iff :
    (d.buildAndRun s r.language p (drawId m).2).2.1 = .brokenOff ↔
      (FileStep.actAll s.device m.cwd p.writing m.files).1 = none ∧
        ¬Nanos.isTellable (d.deadline s r p m) = true := by
  cases hwrite : (FileStep.actAll s.device m.cwd p.writing m.files).1 with
  | some e =>
      obtain ⟨error, hfails⟩ := buildAndRun_of_unwritten (d := d) (s := s) (r := r) hwrite
      simp [hfails]
  | none =>
      rw [buildAndRun_of_written hwrite, deadline, ← s.runSequence_eq_none_iff p.steps]
      split <;> rename_i hrun <;> simp [hrun]

theorem execute_eq_brokenOff_iff :
    (d.execute s r m).1 = .brokenOff ↔
      ∃ p, d.planFor? r m = some p ∧ (FileStep.actAll s.device m.cwd p.writing m.files).1 = none ∧
        ¬Nanos.isTellable (d.deadline s r p m) = true := by
  cases hp : d.planFor? r m with
  | none =>
      obtain ⟨error, m', hfails⟩ := execute_of_planFor?_eq_none hp
      simp [hfails]
  | some p =>
      rw [execute_of_planFor? hp]
      simpa using buildAndRun_eq_brokenOff_iff

/-- Whatever the request and whatever the programs do, an execution gives an outcome, except if it
gets as far as to write the driver and the seconds of its timeout, counted from then, reach beyond
the last second of the clock. -/
theorem execute_eq_outcome_iff (c : Config) (env : Environment) (s : Surroundings) (r : Request)
    (m : Machine) :
    (∃ o, ((ofConfig c env).execute s r m).1 = .outcome o) ↔
      ∀ p, (ofConfig c env).planFor? r m = some p →
        (FileStep.actAll s.device m.cwd p.writing m.files).1 = none →
        (s.pass (written s p m)).clock / Nanos.perSecond + c.timeout r.language ≤
          Nanos.maxSeconds := by
  rw [Completion.exists_eq_outcome_iff, Ne, execute_eq_brokenOff_iff]
  simp only [isTellable_deadline_iff, not_exists, not_and, not_not]

def endlessConfig : Config :=
  (Config.mk Config.defaults []).set (Config.key "SCRIPT_TIMEOUT") "18446744073709551615".toList

def promptTools : Surroundings where
  pass m := m
  start _ _ m := (.finished (.exited 0) (Utf8.encode (Outcome.success ['5']).toJson.compact) [], m)

def oneModule : Machine where
  files := ⟨[(["tmp".toList], .directory), (["s".toList], .directory),
    (["s".toList, "m.py".toList], .file [] false)]⟩
  clock := 0

theorem execute_endless_brokenOff :
    endlessConfig.scriptTimeout = maxWord ∧
      ((ofConfig endlessConfig []).execute promptTools (.ofFile ['f'] [] "/s/m.py".toList)
        oneModule).1 = .brokenOff := by
  decide +kernel

end Dispatcher

end SoloCall
