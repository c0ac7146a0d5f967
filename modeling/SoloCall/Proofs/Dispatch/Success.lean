import SoloCall.Proofs.Dispatch.Restoration
import SoloCall.Proofs.Outcome.LastReport
import SoloCall.Proofs.Process.Success
import SoloCall.Proofs.Shell.Start

namespace SoloCall

namespace Driver

variable {c : Context} {p : Plan} {place : Place}

theorem javaPlan_compile_ne_run (c : Context) (place : Place) :
    (c.javaPlan place).compile? ≠ some (c.javaPlan place).run := by
  intro h
  have hlast := congrArg (fun inv => inv.args.getLast?) (Option.some.inj h)
  simp [Context.javaPlan, Invocation.withArgs] at hlast

theorem nativePlan_compile_ne_run (c : Context) (compiler : Tool) (flags : List Text)
    (extension : String) (contents : Text) (place : Place) :
    (c.nativePlan compiler flags extension contents place).compile? ≠
      some (c.nativePlan compiler flags extension contents place).run := by
  intro h
  have hargs := congrArg Invocation.args (Option.some.inj h)
  simp [Context.nativePlan, Invocation.withArgs] at hargs

theorem plan_compile_ne_run (h : c.plan = .ok p) : p.compile? ≠ some p.run := by
  obtain ⟨place, -, hplan⟩ := plan_cases h
  cases hplan with
  | python => simp [Context.pythonPlanOf]
  | java => exact javaPlan_compile_ne_run c place
  | c | cpp => exact nativePlan_compile_ne_run c _ _ _ _ place
  | go => simp [Context.goPlan]
  | javascript | typescript => simp [Context.scriptPlan]

end Driver

namespace Dispatcher

open Driver

variable {d : Dispatcher} {s s' : Surroundings} {r : Request} {m : Machine} {p : Plan} {text : Text}

theorem validate_eq_error {o : Outcome} (h : validate r m = .error o) :
    ∃ error, o = .failure error := by
  simp only [validate, notFound] at h
  split at h
  · cases h
    exact ⟨_, rfl⟩
  · split at h
    · cases h
      exact ⟨_, rfl⟩
    · split at h <;> cases h
      exact ⟨_, rfl⟩

theorem planFor?_eq_some (h : d.planFor? r m = some p) :
    ∃ path source, validate r m = .ok (path, source) ∧
      (d.context r path source (drawId m).1).plan = .ok p := by
  rw [planFor?] at h
  cases hv : validate r m with
  | error o => simp [hv] at h
  | ok found =>
      obtain ⟨path, source⟩ := found
      simp only [hv] at h
      cases hp : (d.context r path source (drawId m).1).plan with
      | error e => simp [hp, Except.toOption] at h
      | ok plan =>
          rw [hp] at h
          obtain rfl := Option.some.inj h
          exact ⟨path, source, rfl, hp⟩

theorem execute_of_planFor?_eq_none (h : d.planFor? r m = none) :
    ∃ error m', ∀ s, d.execute s r m = (.outcome (.failure error), m') := by
  rw [planFor?] at h
  cases hv : validate r m with
  | error o =>
      obtain ⟨error, rfl⟩ := validate_eq_error hv
      exact ⟨error, m, fun s => by simp [execute, hv]⟩
  | ok found =>
      obtain ⟨path, source⟩ := found
      simp only [hv] at h
      cases hp : (d.context r path source (drawId m).1).plan with
      | error e => exact ⟨e.message, (drawId m).2, fun s => by simp [execute, hv, hp]⟩
      | ok plan => simp [hp, Except.toOption] at h

theorem execute_of_planFor? (h : d.planFor? r m = some p) (s : Surroundings) :
    d.execute s r m =
      let (scratch, completion, m) := d.buildAndRun s r.language p (drawId m).2
      (completion, { m with files := settle scratch m.cwd m.files completion }) := by
  obtain ⟨path, source, hv, hp⟩ := planFor?_eq_some h
  simp only [execute, hv, hp]

def written (s : Surroundings) (p : Plan) (m : Machine) : Machine :=
  { (drawId m).2 with files := p.written s.device m.cwd m.files }

/-- The moment at which everything that a plan runs has to be done: the limit for build and run
together counts from when the driver has been written. -/
def deadline (d : Dispatcher) (s : Surroundings) (r : Request) (p : Plan) (m : Machine) : Nanos :=
  (s.pass (written s p m)).clock + d.limitFor r.language

theorem buildAndRun_of_unwritten {e : OsError}
    (h : (FileStep.actAll s.device m.cwd p.writing m.files).1 = some e) :
    ∃ error, (d.buildAndRun s r.language p (drawId m).2).2.1 = .outcome (.failure error) := by
  have hfailed : (FileStep.actAll s.device (drawId m).2.cwd p.writing (drawId m).2.files).1 = some e := h
  simp only [buildAndRun, ScratchSet.materialize, hfailed]
  exact ⟨_, rfl⟩

theorem buildAndRun_of_written (h : (FileStep.actAll s.device m.cwd p.writing m.files).1 = none) :
    (d.buildAndRun s r.language p (drawId m).2).2.1 =
      match (s.runSequence p.steps (d.limitFor r.language) (written s p m)).1 with
      | none => .brokenOff
      | some (.ok output) => .outcome (Outcome.ofOutput output)
      | some (.error e) => .outcome (.failure e.message) := by
  have hwritten : (FileStep.actAll s.device (drawId m).2.cwd p.writing (drawId m).2.files).1 = none := h
  simp only [buildAndRun, ScratchSet.materialize, hwritten]
  have hmachine : { (drawId m).2 with
      files := (FileStep.actAll s.device (drawId m).2.cwd p.writing (drawId m).2.files).2 } = written s p m :=
    rfl
  rw [hmachine]
  cases s.runSequence p.steps (d.limitFor r.language) (written s p m) with
  | mk result m' => rcases result with _ | _ | _ <;> rfl

theorem buildAndRun_eq_success
    (h : (d.buildAndRun s r.language p (drawId m).2).2.1 = .outcome (.success text)) :
    ∃ ends output m', s.Succeeds (d.deadline s r p m) p.steps (s.pass (written s p m)) ends output m' ∧
      Outcome.ofOutput (Utf8.decodeLossy output) = .success text := by
  cases hwrite : (FileStep.actAll s.device m.cwd p.writing m.files).1 with
  | some e =>
      obtain ⟨error, hfails⟩ := buildAndRun_of_unwritten (d := d) (s := s) (r := r) hwrite
      rw [hfails] at h
      cases h
  | none =>
      rw [buildAndRun_of_written hwrite] at h
      split at h
      · cases h
      · rename_i output hrun
        have hsteps : p.steps ≠ [] := by simp [Plan.steps]
        obtain ⟨ends, bytes, hsucceeds, rfl⟩ :=
          Surroundings.runSequence_eq_ok hsteps (Prod.ext hrun rfl)
        exact ⟨ends, bytes, _, hsucceeds, Completion.outcome.inj h⟩
      · cases h

theorem buildAndRun_eq_of_alike (h : Surroundings.Alike p.compile? s s')
    (hp : p.compile? ≠ some p.run) (language : Language) (m : Machine) :
    d.buildAndRun s' language p m = d.buildAndRun s language p m := by
  have hlast : ∀ inv ∈ p.steps.getLast?, p.compile? ≠ some inv := by
    intro inv hinv
    obtain rfl : p.run = inv := by simpa [Plan.steps] using hinv
    exact hp
  simp only [buildAndRun, h.device, Surroundings.runSequence_eq_of_alike h hlast]

/-- An execution gives a success only if each program of its plan exited with status 0 before the
one deadline, and the last report in the output of the run says so. Where the programs differ only
in what a successful build prints, or a successful program on standard error, it ends the same. -/
theorem execute_success (d : Dispatcher) (s : Surroundings) (r : Request) (m : Machine) :
    (∀ text, (d.execute s r m).1 = .outcome (.success text) →
      ∃ p ends output m', d.planFor? r m = some p ∧
        s.Succeeds (d.deadline s r p m) p.steps (s.pass (written s p m)) ends output m' ∧
        (s.KeepsLimits → ∀ moment ∈ ends, moment ≤ d.deadline s r p m) ∧
        ∃ line, Outcome.IsLastReport (Utf8.decodeLossy output) line ∧
          Outcome.SaysSuccess line text) ∧
    ∀ s', (∀ p, d.planFor? r m = some p → Surroundings.Alike p.compile? s s') →
      d.execute s' r m = d.execute s r m := by
  cases hp : d.planFor? r m with
  | none =>
      obtain ⟨error, m', hfails⟩ := execute_of_planFor?_eq_none hp
      constructor
      · intro text h
        rw [hfails] at h
        cases h
      · intro s' _
        rw [hfails, hfails]
  | some p =>
      constructor
      · intro text h
        rw [execute_of_planFor? hp] at h
        obtain ⟨ends, output, m', hsucceeds, houtput⟩ := buildAndRun_eq_success h
        exact ⟨p, ends, output, m', rfl, hsucceeds, hsucceeds.ends_le,
          Outcome.ofOutput_eq_success houtput⟩
      · intro s' halike
        obtain ⟨path, source, -, hplan⟩ := planFor?_eq_some hp
        rw [execute_of_planFor? hp, execute_of_planFor? hp,
          buildAndRun_eq_of_alike (halike p rfl) (plan_compile_ne_run hplan)]

def reporter (chatter : Bytes) : Surroundings where
  pass m := m
  start inv _ m :=
    if oneClassPlan.compile? = some inv then (.finished (.exited 0) chatter chatter, m)
    else (.finished (.exited 0) (Utf8.encode (Outcome.success ['5']).toJson.compact) [], m)

def misleadingReport : Bytes := Utf8.encode (Outcome.success ['6']).toJson.compact

theorem reporter_keepsLimits (chatter : Bytes) : (reporter chatter).KeepsLimits := by
  intro inv limit m status output diagnostics _
  have hclock : ((reporter chatter).start inv limit m).2.clock = m.clock := by
    simp only [reporter]
    split <;> rfl
  rw [hclock]
  exact Nat.le_add_right _ _

theorem reporter_alike (chatter chatter' : Bytes) :
    Surroundings.Alike oneClassPlan.compile? (reporter chatter) (reporter chatter') where
  device := rfl
  pass _ := rfl
  ending inv limit m := by
    simp only [reporter]
    split
    · rename_i hbuild
      exact .build hbuild _ _ _ _
    · exact .same _
  machine inv limit m := by
    simp only [reporter]
    split <;> rfl

theorem shell_keepsLimits : Shell.surroundings.KeepsLimits :=
  fun _ _ _ _ _ _ h => Shell.start_clock_le h

def saying (value : Char) : Tool where
  program := "sh".toList
  args := ["-c".toList,
    "echo '".toList ++ (Outcome.success [value]).toJson.compact ++ ['\'']]

def shellDispatcher : Dispatcher :=
  { plainDispatcher with toolchain := { javac := saying '6', java := saying '5' } }

def shellClass : Machine :=
  { oneClass with files := ⟨oneClass.files.entries ++ Shell.Program.systemFiles.entries⟩ }

theorem execute_success_oneClass :
    (plainDispatcher.execute (reporter []) oneClassRequest oneClass).1 =
      .outcome (.success ['5']) ∧
    (∃ p ends output m', plainDispatcher.planFor? oneClassRequest oneClass = some p ∧
      (reporter []).Succeeds (plainDispatcher.deadline (reporter []) oneClassRequest p oneClass)
        p.steps (written (reporter []) p oneClass) ends output m' ∧
      (∀ moment ∈ ends,
        moment ≤ plainDispatcher.deadline (reporter []) oneClassRequest p oneClass) ∧
      ∃ line, Outcome.IsLastReport (Utf8.decodeLossy output) line ∧
        Outcome.SaysSuccess line ['5']) ∧
    plainDispatcher.execute (reporter misleadingReport) oneClassRequest oneClass =
      plainDispatcher.execute (reporter []) oneClassRequest oneClass ∧
    ∃ p ends output m', shellDispatcher.planFor? oneClassRequest shellClass = some p ∧
      Shell.surroundings.Succeeds
        (shellDispatcher.deadline Shell.surroundings oneClassRequest p shellClass) p.steps
        (written Shell.surroundings p shellClass) ends output m' ∧
      (∀ moment ∈ ends,
        moment ≤ shellDispatcher.deadline Shell.surroundings oneClassRequest p shellClass) ∧
      ∃ line, Outcome.IsLastReport (Utf8.decodeLossy output) line ∧
        Outcome.SaysSuccess line ['5'] := by
  have hfive : (plainDispatcher.execute (reporter []) oneClassRequest oneClass).1 =
      .outcome (.success ['5']) := by
    decide +kernel
  obtain ⟨hsuccess, halike⟩ := execute_success plainDispatcher (reporter []) oneClassRequest oneClass
  have hshell : (shellDispatcher.execute Shell.surroundings oneClassRequest shellClass).1 =
      .outcome (.success ['5']) := by
    decide +kernel
  refine ⟨hfive, ?_, ?_, ?_⟩
  · obtain ⟨p, ends, output, m', hp, hsucceeds, hends, hreport⟩ := hsuccess _ hfive
    exact ⟨p, ends, output, m', hp, hsucceeds, hends (reporter_keepsLimits []), hreport⟩
  · apply halike
    intro p hp
    obtain rfl := Option.some.inj (planFor?_oneClass.symm.trans hp)
    exact reporter_alike [] misleadingReport
  · obtain ⟨p, ends, output, m', hp, hsucceeds, hends, hreport⟩ :=
      (execute_success shellDispatcher Shell.surroundings oneClassRequest shellClass).1 _ hshell
    exact ⟨p, ends, output, m', hp, hsucceeds, hends shell_keepsLimits, hreport⟩

end Dispatcher

end SoloCall
