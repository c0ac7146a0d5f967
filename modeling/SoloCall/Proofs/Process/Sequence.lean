import Mathlib.Data.List.Infix
import SoloCall.Process.Run
import SoloCall.Proofs.Shell.Start

namespace SoloCall

/-- The same error, with the whole limit in the place of the time that was left. -/
def RunError.within (limit : Nanos) : RunError → RunError
  | .timeout _ => .timeout limit
  | e => e

theorem RunError.within_eq (limit : Nanos) (e : RunError) :
    e.within limit = if e.isTimeout then .timeout limit else e := by
  cases e <;> rfl

theorem RunError.within_eq_timeout {limit told : Nanos} {e : RunError}
    (h : e.within limit = .timeout told) : told = limit := by
  cases e <;> cases h
  rfl

structure Start where
  program : Invocation
  given : Nanos
  before : Machine
  ending : Ending
  after : Machine

namespace Start

def result (st : Start) : Except RunError Text := st.ending.result st.program.program st.given

def Succeeds (st : Start) : Prop := ∃ output, st.result = .ok output

/-- The next start from a machine: before the deadline, and with the time that is left of it. -/
structure IsNext (st : Start) (s : Surroundings) (deadline : Nanos) (m : Machine) : Prop where
  before_eq : st.before = s.pass m
  early : st.before.clock < deadline
  given_eq : st.given = deadline - st.before.clock
  start_eq : s.start st.program st.given st.before = (st.ending, st.after)

end Start

namespace Surroundings

/-- How programs run up to a deadline, with the starts that are made: to the end of the list, to a
deadline that has been reached, or to the first failure. -/
inductive Runs (s : Surroundings) (limit deadline : Nanos) : List Invocation → (last : Text) →
    Machine → (log : List Start) → Except RunError Text → Machine → Prop
  | finished (last : Text) (m : Machine) : Runs s limit deadline [] last m [] (.ok last) m
  | late {inv rest last m} (reached : deadline ≤ (s.pass m).clock) :
      Runs s limit deadline (inv :: rest) last m [] (.error (.timeout limit)) (s.pass m)
  | failed {st rest last m e} (next : st.IsNext s deadline m) (failure : st.result = .error e) :
      Runs s limit deadline (st.program :: rest) last m [st] (.error (e.within limit)) st.after
  | succeeded {st rest last m output log result m'} (next : st.IsNext s deadline m)
      (success : st.result = .ok output)
      (others : Runs s limit deadline rest output st.after log result m') :
      Runs s limit deadline (st.program :: rest) last m (st :: log) result m'

variable {s s' : Surroundings} {limit deadline : Nanos} {steps rest : List Invocation}
  {last output : Text} {m m' : Machine} {st : Start} {log : List Start}
  {result : Except RunError Text} {e : RunError}

theorem runUntil_of_late (h : deadline ≤ (s.pass m).clock) (inv : Invocation)
    (rest : List Invocation) (last : Text) :
    s.runUntil limit deadline (inv :: rest) last m = (.error (.timeout limit), s.pass m) := by
  rw [runUntil, if_pos (Nat.sub_eq_zero_of_le h)]

theorem runUntil_of_isNext (h : st.IsNext s deadline m) (rest : List Invocation) (last : Text) :
    s.runUntil limit deadline (st.program :: rest) last m =
      match st.result with
      | .ok output => s.runUntil limit deadline rest output st.after
      | .error e => (.error (e.within limit), st.after) := by
  have hleft : deadline - (s.pass m).clock ≠ 0 :=
    Nat.sub_ne_zero_iff_lt.2 (h.before_eq ▸ h.early)
  have hstart : s.start st.program (deadline - (s.pass m).clock) (s.pass m) =
      (st.ending, st.after) := by
    rw [← h.before_eq, ← h.given_eq, h.start_eq]
  have hresult : st.ending.result st.program.program (deadline - (s.pass m).clock) = st.result := by
    rw [← h.before_eq, ← h.given_eq, Start.result]
  simp only [runUntil, if_neg hleft, run, hstart, hresult]
  cases st.result with
  | ok output => rfl
  | error e => simp only [RunError.within_eq]

theorem exists_isNext (h : (s.pass m).clock < deadline) (inv : Invocation) :
    ∃ st : Start, st.program = inv ∧ st.IsNext s deadline m := by
  let given := deadline - (s.pass m).clock
  exact ⟨⟨inv, given, s.pass m, (s.start inv given (s.pass m)).1, (s.start inv given (s.pass m)).2⟩,
    rfl, rfl, h, rfl, rfl⟩

theorem Runs.runUntil_eq (h : Runs s limit deadline steps last m log result m') :
    s.runUntil limit deadline steps last m = (result, m') := by
  induction h with
  | finished => rfl
  | late reached => exact runUntil_of_late reached _ _ _
  | failed next failure => rw [runUntil_of_isNext next, failure]
  | succeeded next success others ih =>
      rw [runUntil_of_isNext next, success]
      exact ih

theorem exists_runs (s : Surroundings) (limit deadline : Nanos) (steps : List Invocation)
    (last : Text) (m : Machine) :
    ∃ log result m', Runs s limit deadline steps last m log result m' := by
  -- By induction on the programs: each that succeeds leaves the rest its output and its machine.
  induction steps generalizing last m with
  | nil => exact ⟨_, _, _, .finished last m⟩
  | cons inv rest ih =>
      by_cases hlate : deadline ≤ (s.pass m).clock
      · exact ⟨_, _, _, .late hlate⟩
      · obtain ⟨st, rfl, next⟩ := exists_isNext (Nat.lt_of_not_le hlate) inv
        cases hresult : st.result with
        | error e => exact ⟨_, _, _, .failed next hresult⟩
        | ok output =>
            obtain ⟨log, result, m', others⟩ := ih output st.after
            exact ⟨_, _, _, .succeeded next hresult others⟩

namespace Runs

theorem programs_prefix (h : Runs s limit deadline steps last m log result m') :
    log.map Start.program <+: steps := by
  induction h with
  | finished | late => exact List.nil_prefix
  | failed => exact (List.prefix_cons_inj _).2 List.nil_prefix
  | succeeded _ _ _ ih => exact (List.prefix_cons_inj _).2 ih

theorem succeeds_of_mem_dropLast (h : Runs s limit deadline steps last m log result m') :
    ∀ st ∈ log.dropLast, st.Succeeds := by
  induction h with
  | finished | late | failed => simp
  | @succeeded st _ _ _ output log _ _ _ success _ ih =>
      cases log with
      | nil => simp
      | cons next log =>
          rw [List.dropLast_cons_cons]
          exact List.forall_mem_cons.2 ⟨⟨output, success⟩, ih⟩

theorem of_ok {text : Text} (h : Runs s limit deadline steps last m log (.ok text) m') :
    log.map Start.program = steps ∧ (∀ st ∈ log, st.Succeeds) ∧
      (log.getLast?.map Start.result).getD (.ok last) = .ok text := by
  generalize hresult : Except.ok text = result at h
  induction h with
  | finished => exact ⟨rfl, by simp, rfl⟩
  | late | failed => cases hresult
  | @succeeded st _ _ _ _ log _ _ _ success _ ih =>
      obtain ⟨hprograms, hall, houtput⟩ := ih hresult
      refine ⟨by rw [List.map_cons, hprograms], List.forall_mem_cons.2 ⟨⟨_, success⟩, hall⟩, ?_⟩
      rw [List.getLast?_cons]
      cases hlast : log.getLast? with
      | none => simpa [hlast, success] using houtput
      | some final => simpa [hlast] using houtput

theorem of_error (h : Runs s limit deadline steps last m log (.error e) m') :
    (∃ init st own, log = init ++ [st] ∧ st.result = .error own ∧ e = own.within limit) ∨
      (∃ next rest, steps = log.map Start.program ++ next :: rest) ∧ (∀ st ∈ log, st.Succeeds) ∧
        deadline ≤ m'.clock ∧ e = .timeout limit := by
  generalize hresult : Except.error e = result at h
  induction h with
  | finished => cases hresult
  | @late inv rest _ _ reached =>
      exact .inr ⟨⟨inv, rest, rfl⟩, by simp, reached, Except.error.inj hresult⟩
  | @failed st _ _ _ own next failure =>
      exact .inl ⟨[], st, own, rfl, failure, Except.error.inj hresult⟩
  | @succeeded st _ _ _ output _ _ _ _ success _ ih =>
      rcases ih hresult with ⟨init, final, own, rfl, hfinal⟩ | ⟨⟨inv, rest, rfl⟩, hall, hlate⟩
      · exact .inl ⟨st :: init, final, own, rfl, hfinal⟩
      · exact .inr ⟨⟨inv, rest, rfl⟩, List.forall_mem_cons.2 ⟨⟨output, success⟩, hall⟩, hlate⟩

theorem told_eq {told : Nanos}
    (h : Runs s limit deadline steps last m log (.error (.timeout told)) m') : told = limit := by
  rcases h.of_error with ⟨init, st, own, -, -, howned⟩ | ⟨-, -, -, hlate⟩
  · exact RunError.within_eq_timeout howned.symm
  · exact RunError.timeout.inj hlate

end Runs

structure ClockAdvances (s : Surroundings) : Prop where
  pass_le : ∀ m, m.clock ≤ (s.pass m).clock
  start_le : ∀ inv limit m, m.clock ≤ (s.start inv limit m).2.clock

theorem IsNext.clock_le (hs : s.ClockAdvances) (h : st.IsNext s deadline m) :
    m.clock ≤ st.before.clock ∧ st.before.clock ≤ st.after.clock := by
  have hstart := hs.start_le st.program st.given st.before
  rw [h.start_eq] at hstart
  rw [h.before_eq] at hstart ⊢
  exact ⟨hs.pass_le m, hstart⟩

namespace Runs

theorem given_le (hs : s.ClockAdvances) (h : Runs s limit deadline steps last m log result m') :
    (∀ st ∈ log, st.given ≤ deadline - m.clock) ∧
      log.Pairwise fun st later => later.given ≤ st.given := by
  have hgiven {st : Start} {m : Machine} (next : st.IsNext s deadline m) :
      st.given ≤ deadline - m.clock := by
    rw [next.given_eq]
    exact Nat.sub_le_sub_left (IsNext.clock_le hs next).1 deadline
  induction h with
  | finished | late => simp
  | failed next => simpa using hgiven next
  | @succeeded st _ _ _ _ log _ _ next _ _ ih =>
      obtain ⟨hle, hpairs⟩ := ih
      have hshrinks : ∀ later ∈ log, later.given ≤ st.given := by
        intro later hmem
        calc later.given ≤ deadline - st.after.clock := hle later hmem
          _ ≤ deadline - st.before.clock := Nat.sub_le_sub_left (IsNext.clock_le hs next).2 deadline
          _ = st.given := next.given_eq.symm
      refine ⟨List.forall_mem_cons.2 ⟨hgiven next, fun later hmem => ?_⟩,
        List.pairwise_cons.2 ⟨hshrinks, hpairs⟩⟩
      exact (hshrinks later hmem).trans (hgiven next)

/-- Surroundings in which the same starts end alike run alike, whatever other starts would bring. -/
theorem congr (h : Runs s limit deadline steps last m log result m')
    (hpass : ∀ m, s'.pass m = s.pass m)
    (hstart : ∀ st ∈ log, s'.start st.program st.given st.before = (st.ending, st.after)) :
    Runs s' limit deadline steps last m log result m' := by
  have hnext {st : Start} {m : Machine} (next : st.IsNext s deadline m)
      (hst : s'.start st.program st.given st.before = (st.ending, st.after)) :
      st.IsNext s' deadline m :=
    ⟨next.before_eq.trans (hpass m).symm, next.early, next.given_eq, hst⟩
  induction h with
  | finished => exact .finished _ _
  | @late _ _ _ m reached =>
      rw [← hpass m] at reached ⊢
      exact .late reached
  | failed next failure => exact .failed (hnext next (hstart _ List.mem_cons_self)) failure
  | succeeded next success _ ih =>
      exact .succeeded (hnext next (hstart _ List.mem_cons_self)) success
        (ih fun st hmem => hstart st (List.mem_cons_of_mem _ hmem))

end Runs

/-- What is seen of programs that run one after the other under one limit. -/
structure SharesDeadline (s : Surroundings) (limit : Nanos) (steps : List Invocation) (m : Machine)
    (log : List Start) (result : Except RunError Text) (m' : Machine) : Prop where
  runs : s.Runs limit ((s.pass m).clock + limit) steps [] (s.pass m) log result m'
  in_order : log.map Start.program <+: steps
  after_success : ∀ st ∈ log.dropLast, st.Succeeds
  given_le_limit : ∀ st ∈ log, st.given ≤ limit
  given_shrinks : log.Pairwise fun st later => later.given ≤ st.given
  of_ok : ∀ text, result = .ok text → log.map Start.program = steps ∧
    (∀ st ∈ log, st.Succeeds) ∧ (log.getLast?.map Start.result).getD (.ok []) = .ok text
  of_error : ∀ e, result = .error e →
    (∃ init st own, log = init ++ [st] ∧ st.result = .error own ∧ e = own.within limit) ∨
      (∃ next rest, steps = log.map Start.program ++ next :: rest) ∧ (∀ st ∈ log, st.Succeeds) ∧
        (s.pass m).clock + limit ≤ m'.clock ∧ e = .timeout limit
  told_eq : ∀ told, result = .error (.timeout told) → told = limit
  no_other : ∀ s' : Surroundings, (∀ m, s'.pass m = s.pass m) →
    (∀ st ∈ log, s'.start st.program st.given st.before = (st.ending, st.after)) →
    s'.runSequence steps limit m = (some result, m')

theorem Runs.runSequence_eq (ht : Nanos.isTellable ((s.pass m).clock + limit) = true)
    (h : Runs s limit ((s.pass m).clock + limit) steps [] (s.pass m) log result m') :
    s.runSequence steps limit m = (some result, m') := by
  simp only [runSequence, if_pos ht, h.runUntil_eq]

/-- Where the clock can tell the deadline, programs run in order and share it: each is started after
the success of those before it, with the time that is left. The result is the last output or the
first failure, and a timeout is told with the whole limit. -/
theorem runSequence_sharesDeadline (hs : s.ClockAdvances)
    (ht : Nanos.isTellable ((s.pass m).clock + limit) = true) (steps : List Invocation) :
    ∃ log result m', s.runSequence steps limit m = (some result, m') ∧
      s.SharesDeadline limit steps m log result m' := by
  obtain ⟨log, result, m', h⟩ := exists_runs s limit ((s.pass m).clock + limit) steps [] (s.pass m)
  obtain ⟨hgiven, hshrinks⟩ := h.given_le hs
  refine ⟨log, result, m', h.runSequence_eq ht, h, h.programs_prefix, h.succeeds_of_mem_dropLast,
    ?_, hshrinks, ?_, ?_, ?_, ?_⟩
  · simpa using hgiven
  · rintro text rfl
    exact h.of_ok
  · rintro e rfl
    exact h.of_error
  · rintro told rfl
    exact h.told_eq
  · intro s' hpass hstart
    have hsame := hpass m
    exact Runs.runSequence_eq (hsame ▸ ht) (hsame.symm ▸ h.congr hpass hstart)

def sleeper : Surroundings where
  pass m := { m with clock := m.clock + Nanos.ofMillis 1 }
  start inv limit m :=
    let needed := if inv.program = "sleep".toList then Nanos.ofSeconds 30 else Nanos.ofMillis 200
    if needed ≤ limit then (.finished (.exited 0) [] [], { m with clock := m.clock + needed })
    else (.unfinished, { m with clock := m.clock + limit })

theorem sleeper_clockAdvances : sleeper.ClockAdvances where
  pass_le _ := Nat.le_add_right _ _
  start_le inv limit m := by
    simp only [sleeper]
    split <;> split <;> exact Nat.le_add_right _ _

def sleepySteps : List Invocation := ["build", "sleep", "run"].map fun program =>
  ⟨program.toList, [], "/".toList⟩

theorem shell_clockAdvances : Shell.surroundings.ClockAdvances where
  pass_le _ := Nat.le_refl _
  start_le := Shell.clock_le_start

def shellMachine : Machine where
  files := Shell.Program.systemFiles
  clock := 0

def shellSteps : List Invocation :=
  [("true", []), ("sleep", ["30"]), ("echo", ["done"])].map fun x =>
    ⟨x.1.toList, x.2.map String.toList, "/".toList⟩

theorem runSequence_sharesDeadline_sleep :
    sleeper.ClockAdvances ∧
      Nanos.isTellable ((sleeper.pass ⟨{}, 0, [], [], 0, 1, 0⟩).clock + Nanos.ofMillis 800) = true ∧
      (∃ log m', sleeper.SharesDeadline (Nanos.ofMillis 800) sleepySteps
        ⟨{}, 0, [], [], 0, 1, 0⟩ log (.error (.timeout (Nanos.ofMillis 800))) m') ∧
    Shell.surroundings.ClockAdvances ∧
      Nanos.isTellable ((Shell.surroundings.pass shellMachine).clock + Nanos.ofMillis 800) = true ∧
      ∃ log m', Shell.surroundings.SharesDeadline (Nanos.ofMillis 800) shellSteps shellMachine log
        (.error (.timeout (Nanos.ofMillis 800))) m' := by
  have htold {s : Surroundings} (hs : s.ClockAdvances) {steps : List Invocation} {m : Machine}
      (ht : Nanos.isTellable ((s.pass m).clock + Nanos.ofMillis 800) = true)
      (hresult : (s.runSequence steps (Nanos.ofMillis 800) m).1 =
        some (.error (.timeout (Nanos.ofMillis 800)))) :
      ∃ log m', s.SharesDeadline (Nanos.ofMillis 800) steps m log
        (.error (.timeout (Nanos.ofMillis 800))) m' := by
    obtain ⟨log, result, m', heq, h⟩ := runSequence_sharesDeadline hs ht steps
    rw [heq] at hresult
    obtain rfl := Option.some.inj hresult
    exact ⟨log, m', h⟩
  have ht : Nanos.isTellable
      ((sleeper.pass ⟨{}, 0, [], [], 0, 1, 0⟩).clock + Nanos.ofMillis 800) = true := by
    decide
  have hshell : Nanos.isTellable
      ((Shell.surroundings.pass shellMachine).clock + Nanos.ofMillis 800) = true := by
    decide
  exact ⟨sleeper_clockAdvances, ht, htold sleeper_clockAdvances ht (by rfl),
    shell_clockAdvances, hshell, htold shell_clockAdvances hshell (by decide +kernel)⟩

end Surroundings

end SoloCall
