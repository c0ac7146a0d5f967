import SoloCall.Process.Run

namespace SoloCall

theorem Ending.result_eq_ok {ending : Ending} {program : Text} {limit : Nanos} {text : Text}
    (h : ending.result program limit = .ok text) :
    ∃ output diagnostics, ending = .finished (.exited 0) output diagnostics ∧
      text = Utf8.decodeLossy output := by
  rw [Ending.result.eq_def] at h
  split at h
  case h_4 output diagnostics =>
    obtain rfl := Except.ok.inj h
    exact ⟨output, diagnostics, rfl, rfl⟩
  all_goals cases h

inductive Ending.Alike (isBuild : Prop) : Ending → Ending → Prop
  | same (ending : Ending) : Alike isBuild ending ending
  | diagnostics (output diagnostics diagnostics' : Bytes) :
      Alike isBuild (.finished (.exited 0) output diagnostics)
        (.finished (.exited 0) output diagnostics')
  | build (h : isBuild) (output output' diagnostics diagnostics' : Bytes) :
      Alike isBuild (.finished (.exited 0) output diagnostics)
        (.finished (.exited 0) output' diagnostics')

theorem Ending.Alike.result_eq {isBuild : Prop} {ending ending' : Ending}
    (h : Alike isBuild ending ending') (hb : ¬ isBuild) (program : Text) (limit : Nanos) :
    ending'.result program limit = ending.result program limit := by
  cases h with
  | same | diagnostics => rfl
  | build hbuild => exact absurd hbuild hb

theorem Ending.Alike.result_eq_or {isBuild : Prop} {ending ending' : Ending}
    (h : Alike isBuild ending ending') (program : Text) (limit : Nanos) :
    ending'.result program limit = ending.result program limit ∨
      ∃ text text', ending.result program limit = .ok text ∧
        ending'.result program limit = .ok text' := by
  cases h with
  | same | diagnostics => exact .inl rfl
  | build => exact .inr ⟨_, _, rfl, rfl⟩

namespace Surroundings

variable {s s' : Surroundings} {limit deadline : Nanos} {steps : List Invocation} {last text : Text}
  {m m' : Machine}

/-- Programs run one after the other. Each starts before the deadline, gets the time that is left
of it, and exits with status 0; `ends` are the moments at which they end, and `output` is what the
last one prints. -/
inductive Succeeds (s : Surroundings) (deadline : Nanos) :
    List Invocation → Machine → (ends : List Nanos) → (output : Bytes) → Machine → Prop
  | last {inv m output diagnostics m'} (started : (s.pass m).clock < deadline)
      (exited : s.start inv (deadline - (s.pass m).clock) (s.pass m) =
        (.finished (.exited 0) output diagnostics, m')) :
      Succeeds s deadline [inv] m [m'.clock] output m'
  | step {inv rest m printed diagnostics m' ends output m''}
      (started : (s.pass m).clock < deadline)
      (exited : s.start inv (deadline - (s.pass m).clock) (s.pass m) =
        (.finished (.exited 0) printed diagnostics, m'))
      (others : Succeeds s deadline rest m' ends output m'') :
      Succeeds s deadline (inv :: rest) m (m'.clock :: ends) output m''

/-- A program that ends by itself does so within the time it is given. -/
def KeepsLimits (s : Surroundings) : Prop :=
  ∀ inv limit m status output diagnostics,
    (s.start inv limit m).1 = .finished status output diagnostics →
      (s.start inv limit m).2.clock ≤ m.clock + limit

theorem KeepsLimits.clock_le (hs : s.KeepsLimits) {inv : Invocation} {status : ExitStatus}
    {output diagnostics : Bytes} (started : m.clock < deadline)
    (exited : s.start inv (deadline - m.clock) m = (.finished status output diagnostics, m')) :
    m'.clock ≤ deadline := by
  have h := hs inv (deadline - m.clock) m status output diagnostics (by rw [exited])
  rw [exited] at h
  calc m'.clock ≤ m.clock + (deadline - m.clock) := h
    _ = deadline := Nat.add_sub_of_le (Nat.le_of_lt started)

theorem Succeeds.ends_le (hs : s.KeepsLimits) {ends : List Nanos} {output : Bytes}
    (h : s.Succeeds deadline steps m ends output m') : ∀ moment ∈ ends, moment ≤ deadline := by
  induction h with
  | last started exited => simpa using hs.clock_le started exited
  | step started exited _ ih => simpa using ⟨hs.clock_le started exited, ih⟩

theorem runUntil_eq_ok (hsteps : steps ≠ [])
    (h : s.runUntil limit deadline steps last m = (.ok text, m')) :
    ∃ ends output, s.Succeeds deadline steps m ends output m' ∧
      text = Utf8.decodeLossy output := by
  -- By induction on the programs; an empty rest has given its text already.
  induction steps generalizing last m with
  | nil => exact absurd rfl hsteps
  | cons inv rest ih =>
      simp only [runUntil, run] at h
      split at h
      · cases h
      · rename_i hleft
        have started : (s.pass m).clock < deadline := Nat.sub_ne_zero_iff_lt.1 hleft
        cases hstart : s.start inv (deadline - (s.pass m).clock) (s.pass m) with
        | mk ending m₁ =>
            simp only [hstart] at h
            cases hresult : ending.result inv.program (deadline - (s.pass m).clock) with
            | error e => simp [hresult] at h
            | ok printed =>
                simp only [hresult] at h
                obtain ⟨output, diagnostics, rfl, htext⟩ := Ending.result_eq_ok hresult
                cases rest with
                | nil =>
                    obtain ⟨hok, rfl⟩ := Prod.mk.inj h
                    exact ⟨_, output, .last started hstart, (Except.ok.inj hok).symm.trans htext⟩
                | cons next rest =>
                    obtain ⟨ends, final, hrest, hfinal⟩ := ih (by simp) h
                    exact ⟨_, final, .step started hstart hrest, hfinal⟩

theorem runSequence_eq_ok (hsteps : steps ≠ [])
    (h : s.runSequence steps limit m = (some (.ok text), m')) :
    ∃ ends output, s.Succeeds ((s.pass m).clock + limit) steps (s.pass m) ends output m' ∧
      text = Utf8.decodeLossy output := by
  simp only [runSequence] at h
  split at h
  · obtain ⟨hresult, rfl⟩ := Prod.mk.inj h
    exact runUntil_eq_ok hsteps (Prod.ext (Option.some.inj hresult) rfl)
  · cases h

/-- Two ways in which the programs behave that differ at most in what successful ones print: on
standard error, and for the build on standard output as well. -/
structure Alike (build? : Option Invocation) (s s' : Surroundings) : Prop where
  device : s'.device = s.device
  pass : ∀ m, s'.pass m = s.pass m
  ending : ∀ inv limit m,
    (s.start inv limit m).1.Alike (build? = some inv) (s'.start inv limit m).1
  machine : ∀ inv limit m, (s'.start inv limit m).2 = (s.start inv limit m).2

theorem runUntil_eq_of_alike {build? : Option Invocation} (h : Alike build? s s')
    (hlast : ∀ inv ∈ steps.getLast?, build? ≠ some inv) :
    s'.runUntil limit deadline steps last m = s.runUntil limit deadline steps last m := by
  -- By induction on the programs: what one prints is passed over as soon as another follows.
  induction steps generalizing last m with
  | nil => rfl
  | cons inv rest ih =>
      simp only [runUntil, run, h.pass, h.machine]
      split
      · rfl
      · have halike := h.ending inv (deadline - (s.pass m).clock) (s.pass m)
        cases rest with
        | nil => rw [halike.result_eq (hlast inv rfl)]; rfl
        | cons next rest =>
            have hrest (printed : Text) (m₁ : Machine) :
                s'.runUntil limit deadline (next :: rest) printed m₁ =
                  s.runUntil limit deadline (next :: rest) printed m₁ :=
              ih fun last hl => hlast last (by simpa using hl)
            rcases halike.result_eq_or inv.program (deadline - (s.pass m).clock) with
              he | ⟨text, text', ht, ht'⟩
            · rw [he]
              simp only [hrest]
            · rw [ht, ht']
              exact hrest text' _

theorem runSequence_eq_of_alike {build? : Option Invocation} (h : Alike build? s s')
    (hlast : ∀ inv ∈ steps.getLast?, build? ≠ some inv) :
    s'.runSequence steps limit m = s.runSequence steps limit m := by
  simp only [runSequence, h.pass, runUntil_eq_of_alike h hlast]

end Surroundings

end SoloCall
