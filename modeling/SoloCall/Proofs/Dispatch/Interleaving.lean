import SoloCall.Dispatch.Execute
import SoloCall.Proofs.Dispatch.OwnSteps

namespace SoloCall

open FileSystem Driver

/-- What an execution has still to do. Its programs run once nothing is left to write. -/
inductive Phase where
  | writing (rest : List FileStep)
  | removing (rest : List FileStep)

structure Planned where
  context : Context
  plan : Plan
  made : context.plan = .ok plan

structure Execution where
  planned : Planned
  phase : Phase

/-- One act of the execution with the given number, by its programs or by itself, and the locations
that it has to do with. -/
structure Act where
  who : Nat
  byTools : Bool
  touches : Location → Prop
  before : FileSystem
  after : FileSystem

structure Host where
  files : FileSystem
  cwd : Location
  pid : Nat
  drawn : UInt64 := 0
  executions : List Execution := []

/-- How an execution goes on, by its programs or by itself, and what it touches. A failure to write,
with whatever it leaves behind, and the end of the programs at any time and for any reason, lead to
the clean-up. The programs may touch whatever belongs to their execution. -/
inductive Execution.Moves (e : Execution) (cwd : Location) (fs : FileSystem) :
    Bool → (Location → Prop) → Phase → FileSystem → Prop where
  | write (fault? : Option Fault) {step rest fs'} (hphase : e.phase = .writing (step :: rest))
      (hact : step.act cwd fs fault? = (none, fs')) :
      Moves e cwd fs false (step.Touches cwd fs) (.writing rest) fs'
  | fail (fault? : Option Fault) {step rest error fs'} (hphase : e.phase = .writing (step :: rest))
      (hact : step.act cwd fs fault? = (some error, fs')) :
      Moves e cwd fs false (step.Touches cwd fs)
        (.removing e.planned.plan.tracked.removal) fs'
  | tools {touches fs'} (hphase : e.phase = .writing [])
      (hown : ∀ l, touches l → (e.planned.plan.territory cwd fs).Holds l)
      (hchange : ∀ l, ¬ touches l → fs'.get? l = fs.get? l) (htree : fs.IsTree → fs'.IsTree) :
      Moves e cwd fs true touches (.writing []) fs'
  | stop (hphase : e.phase = .writing []) :
      Moves e cwd fs false (fun _ => False) (.removing e.planned.plan.tracked.removal) fs
  | remove {step rest fs'} (hphase : e.phase = .removing (step :: rest))
      (hact : (step.act cwd fs none).2 = fs') :
      Moves e cwd fs false (step.Touches cwd fs) (.removing rest) fs'

namespace Host

structure Shows (h : Host) (m : Machine) : Prop where
  files : m.files = h.files
  cwd : m.cwd = h.cwd
  pid : m.pid = h.pid
  drawn : m.drawn = h.drawn

/-- An execution is begun with the next id, an id is drawn and not used, or an execution goes on.
The number says how many ids are drawn. -/
inductive Step (h : Host) : Nat → List Act → Host → Prop where
  | launch {m : Machine} {x : Planned} (shown : h.Shows m)
      (drawn : x.context.scratchId = (Dispatcher.drawId m).1) :
      Step h 1 [] { h with
        drawn := h.drawn + 1
        executions := h.executions ++ [⟨x, .writing x.plan.writing⟩] }
  | draw : Step h 1 [] { h with drawn := h.drawn + 1 }
  | act {i : Nat} {e : Execution} {byTools : Bool} {touches : Location → Prop} {phase : Phase}
      {files : FileSystem} (who : h.executions[i]? = some e)
      (moves : e.Moves h.cwd h.files byTools touches phase files) :
      Step h 0 [⟨i, byTools, touches, h.files, files⟩]
        { h with files := files, executions := h.executions.set i { e with phase := phase } }

/-- Any number of steps, the ids that are drawn in them, and the acts among them in order. -/
inductive Run (start : Host) : (draws : Nat) → List Act → Host → Prop where
  | start : Run start 0 [] start
  | step {draws acts ids more h h'} (run : Run start draws acts h) (step : h.Step ids more h') :
      Run start (draws + ids) (acts ++ more) h'

end Host

def Planned.territory (x : Planned) (start : Host) : Territory :=
  x.plan.territory start.cwd start.files

def Planned.HousedIn (x : Planned) (start : Host) : Prop :=
  ∃ dir, Housed start.files start.cwd dir x.context.home x.context.scratchId x.plan

namespace Execution

variable {start : Host} {e : Execution} {fs fs' : FileSystem} {touched touched' : Path → Prop}
  {byTools : Bool} {touches : Location → Prop} {phase : Phase}

/-- How far an execution has come: its drivers are in place once they are written, unless its own
programs `touched` them. -/
structure Progress (start : Host) (touched : Path → Prop) (fs : FileSystem) (e : Execution) :
    Prop where
  writing : ∀ rest, e.phase = .writing rest → rest <:+ e.planned.plan.writing
  drivers : e.phase = .writing [] → ∀ f ∈ e.planned.plan.files,
    touched f.path ∨ fs.read start.cwd f.path = .ok (Utf8.encode f.contents)
  removing : ∀ rest, e.phase = .removing rest → ∀ step ∈ rest, step ∈ e.planned.plan.tracked.removal

/-- Whatever is left of an execution can be removed, and will be. -/
structure Tidy (start : Host) (fs : FileSystem) (e : Execution) : Prop where
  fits : (e.planned.territory start).Fits fs
  clearing : ∀ rest, e.phase = .removing rest →
    Housed.Clearing e.planned.plan start.cwd start.files fs rest

theorem read_eq {a : Path} (hx : e.planned.HousedIn start)
    (hk : KeepsDirectories start.files fs) (hk' : KeepsDirectories start.files fs')
    (he : ∀ l, (e.planned.territory start).Holds l → fs'.get? l = fs.get? l)
    (ha : a ∈ e.planned.plan.tracked.files) : fs'.read start.cwd a = fs.read start.cwd a := by
  obtain ⟨dir, h⟩ := hx
  have hmem := Plan.mem_artifacts.2 (.inl ha)
  simp only [FileSystem.read, stat]
  rw [h.locate_eq hk hmem, h.locate_eq hk' hmem]
  cases hl : start.files.locate start.cwd a with
  | error e => rfl
  | ok l =>
      have hfile : (e.planned.territory start).Holds l :=
        .inl (Plan.mem_territory_files.2 ⟨a, ha, hl⟩)
      simp only [bind, Except.bind, he l hfile]

theorem Progress.frame (h : e.Progress start touched fs) (hx : e.planned.HousedIn start)
    (hk : KeepsDirectories start.files fs) (hk' : KeepsDirectories start.files fs')
    (he : ∀ l, (e.planned.territory start).Holds l → fs'.get? l = fs.get? l)
    (htouched : ∀ a, touched a → touched' a) : e.Progress start touched' fs' := by
  refine ⟨h.writing, fun hp f hf => ?_, h.removing⟩
  rw [read_eq hx hk hk' he (Housed.path_mem_tracked hf)]
  exact (h.drivers hp f hf).imp_left (htouched f.path)

theorem Tidy.frame (h : e.Tidy start fs)
    (he : ∀ l, (e.planned.territory start).Holds l → fs'.get? l = fs.get? l) : e.Tidy start fs' :=
  ⟨h.fits.congr he, fun rest hp l hl => he l hl ▸ h.clearing rest hp l hl⟩

theorem progress_launched {x : Planned} (touched : Path → Prop) (fs : FileSystem) :
    Progress start touched fs ⟨x, .writing x.plan.writing⟩ := by
  refine ⟨fun rest hp => ?_, fun hp => ?_, fun _ hp => (nomatch hp)⟩
  · exact Phase.writing.inj hp ▸ List.suffix_rfl
  · obtain ⟨name, contents, -, hfiles⟩ := (plan_liesIn x.made).file
    have hnil := Phase.writing.inj hp
    simp [Plan.writing, hfiles] at hnil

theorem tidy_launched {x : Planned} (hx : x.HousedIn start)
    (he : ∀ l, (x.territory start).Holds l → fs.get? l = start.files.get? l) :
    Tidy start fs ⟨x, .writing x.plan.writing⟩ := by
  obtain ⟨dir, hh⟩ := hx
  exact ⟨hh.fits.congr he, fun _ hp => (nomatch hp)⟩

theorem eq_write_of_suffix {step : FileStep} {p : Plan} {f : ScratchFile} (hf : p.files = [f])
    (hs : [step] <:+ p.writing) : step = .write f.path f.contents := by
  obtain ⟨front, hfront⟩ := hs
  simp only [Plan.writing, hf, List.map_cons, List.map_nil] at hfront
  obtain ⟨-, hstep⟩ := List.append_inj' hfront rfl
  simpa using hstep

theorem read_of_written {dir : Location} {x : Planned} {f : ScratchFile}
    (h : Housed start.files start.cwd dir x.context.home x.context.scratchId x.plan)
    (hk : KeepsDirectories start.files fs) (hk' : KeepsDirectories start.files fs')
    (hf : f ∈ x.plan.files) {fault? : Option Fault}
    (hact : (FileStep.write f.path f.contents).act start.cwd fs fault? = (none, fs')) :
    fs'.read start.cwd f.path = .ok (Utf8.encode f.contents) := by
  obtain ⟨l, executable, hl, hget⟩ := h.get?_of_written hk hf hact
  have hmem := Plan.mem_artifacts.2 (.inl (Housed.path_mem_tracked hf))
  rw [FileSystem.read, stat]
  rw [h.locate_eq hk' hmem, hl]
  simp [bind, Except.bind, hget]

/-- What an act may do: it changes only what it touches, and touches only what belongs to its
execution, and directories that were there from the start. -/
structure Owns (start : Host) (x : Planned) (touches : Location → Prop) (fs fs' : FileSystem) :
    Prop where
  unchanged : ∀ l, ¬ touches l → fs'.get? l = fs.get? l
  touched : ∀ l, touches l → start.files.get? l = some .directory ∨ (x.territory start).Holds l

theorem Progress.owned (h : e.Progress start touched fs) (hx : e.planned.HousedIn start)
    (hk : KeepsDirectories start.files fs) (ht : fs.IsTree)
    (hm : e.Moves start.cwd fs byTools touches phase fs') :
    Owns start e.planned touches fs fs' ∧ (e.planned.territory start).ChangesOnly fs fs' ∧
      (byTools = false → (e.planned.territory start).KeepsKinds fs fs') := by
  obtain ⟨dir, hh⟩ := hx
  cases hm with
  | @write fault? step rest _ hphase hact | @fail fault? step rest error _ hphase hact =>
      have hmem : step ∈ e.planned.plan.writing := (h.writing _ hphase).subset (by simp)
      have ha := hh.writing_allowed hk hmem fault?
      have hsame {l : Location} := hh.eq_of_not_touches_writing (l := l) hk hmem fault?
      rw [hact] at ha hsame
      exact ⟨⟨fun l => hsame, fun l => hh.isDirectory_or_holds hk (.inl hmem)⟩, ha.changesOnly,
        fun _ => ha.keepsKinds⟩
  | tools hphase hown hchange htree =>
      rw [hh.territory_eq hk] at hown
      refine ⟨⟨hchange, fun l hl => .inr (hown l hl)⟩, ⟨fun l hl => ?_, htree⟩, by simp⟩
      exact hchange l fun htouched => hl (hown l htouched)
  | stop hphase => exact ⟨⟨fun _ _ => rfl, fun _ => False.elim⟩, .refl _ _, fun _ => .refl _ _⟩
  | @remove step rest _ hphase hact =>
      have hmem := h.removing _ hphase step (by simp)
      have ha := hh.removal_allowed hk ht hmem
      have hsame {l : Location} := hh.eq_of_not_touches_removal (l := l) hk ht hmem
      rw [hact] at ha hsame
      exact ⟨⟨fun l => hsame, fun l => hh.isDirectory_or_holds hk (.inr hmem)⟩, ha.changesOnly,
        fun _ => ha.keepsKinds⟩

theorem Progress.move (h : e.Progress start touched fs) (hx : e.planned.HousedIn start)
    (hk : KeepsDirectories start.files fs) (hk' : KeepsDirectories start.files fs')
    (hm : e.Moves start.cwd fs byTools touches phase fs') (htouched : ∀ a, touched a → touched' a)
    (hprograms : byTools = true → ∀ a, fs'.read start.cwd a ≠ fs.read start.cwd a → touched' a) :
    Progress start touched' fs' ⟨e.planned, phase⟩ := by
  obtain ⟨dir, hh⟩ := hx
  have hremoval (rest : List FileStep)
      (hp : Phase.removing e.planned.plan.tracked.removal = .removing rest) :
      ∀ step ∈ rest, step ∈ e.planned.plan.tracked.removal :=
    fun _ hs => Phase.removing.inj hp ▸ hs
  cases hm with
  | @write fault? step rest _ hphase hact =>
      have hsuffix := h.writing _ hphase
      refine ⟨fun rest' hp => ?_, fun hp f hf => .inr ?_, fun _ hp => (nomatch hp)⟩
      · obtain rfl := Phase.writing.inj hp
        exact (List.suffix_cons step rest).trans hsuffix
      · obtain rfl := Phase.writing.inj hp
        obtain ⟨name, contents, -, hfiles⟩ := hh.liesIn.file
        have hlast := eq_write_of_suffix hfiles hsuffix
        obtain rfl : f = ⟨Path.join e.planned.context.home name, contents⟩ := by
          simpa [hfiles] using hf
        rw [hlast] at hact
        exact read_of_written hh hk hk' hf hact
  | fail => exact ⟨fun _ hp => (nomatch hp), fun hp => (nomatch hp), hremoval⟩
  | tools hphase hown hchange htree =>
      refine ⟨hphase ▸ h.writing, fun hp f hf => ?_, fun _ hp => (nomatch hp)⟩
      by_cases hread : fs'.read start.cwd f.path = fs.read start.cwd f.path
      · rw [hread]
        exact (h.drivers hphase f hf).imp_left (htouched f.path)
      · exact .inl (hprograms rfl f.path hread)
  | stop hphase => exact ⟨fun _ hp => (nomatch hp), fun hp => (nomatch hp), hremoval⟩
  | @remove step rest _ hphase hact =>
      refine ⟨fun _ hp => (nomatch hp), fun hp => (nomatch hp), fun rest' hp s hs => ?_⟩
      obtain rfl := Phase.removing.inj hp
      exact h.removing _ hphase s (List.mem_cons_of_mem _ hs)

theorem Tidy.move (h : e.Tidy start fs) (hp : e.Progress start touched fs)
    (hx : e.planned.HousedIn start) (hk : KeepsDirectories start.files fs) (ht : fs.IsTree)
    (hm : e.Moves start.cwd fs byTools touches phase fs')
    (hkinds : (e.planned.territory start).KeepsKinds fs fs') :
    Tidy start fs' ⟨e.planned, phase⟩ := by
  obtain ⟨dir, hh⟩ := hx
  refine ⟨h.fits.of_keepsKinds hkinds, fun rest' hphase' => ?_⟩
  cases hm with
  | write => exact (nomatch hphase')
  | fail =>
      exact Phase.removing.inj hphase' ▸ Housed.clearing_removal _ _ _ _
  | tools => exact (nomatch hphase')
  | stop hphase => exact Phase.removing.inj hphase' ▸ Housed.clearing_removal _ _ _ _
  | @remove step rest _ hphase hact =>
      obtain rfl := Phase.removing.inj hphase'
      subst hact
      exact (h.clearing _ hphase).act hh hk ht h.fits (hp.removing _ hphase step (by simp))

end Execution

end SoloCall
