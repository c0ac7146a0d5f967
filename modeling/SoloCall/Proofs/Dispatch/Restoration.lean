import SoloCall.Proofs.Dispatch.Materialization
import SoloCall.Proofs.Dispatch.OwnSteps
import SoloCall.Proofs.Driver.SourceDirectory

namespace SoloCall

open FileSystem

namespace Housed

open Driver

variable {fs₀ fs : FileSystem} {cwd dir : Location} {home : Path} {id : Text} {p : Plan}
  {steps : List FileStep}

theorem actAll_allowed (h : Housed fs₀ cwd dir home id p) (hs : ∀ step ∈ steps, step ∈ p.writing)
    (ha : (p.territory cwd fs₀).Allows fs₀ fs) (device : Device) :
    (p.territory cwd fs₀).Allows fs₀ (FileStep.actAll device cwd steps fs).2 := by
  induction steps generalizing fs with
  | nil => exact ha
  | cons step rest ih =>
      have hk := h.keepsDirectories (fun _ hd => hd) ha.changesOnly
      have hstep := ha.trans (h.writing_allowed hk (hs step (by simp)) (device fs step.path))
      rw [FileStep.actAll]
      cases hact : step.act cwd fs (device fs step.path) with
      | mk e? fs' =>
          rw [hact] at hstep
          cases e? with
          | none => exact ih (fun s hm => hs s (List.mem_cons_of_mem _ hm)) hstep
          | some e => exact hstep

theorem get?_actRegardless (h : Housed fs₀ cwd dir home id p)
    (hs : ∀ step ∈ steps, step ∈ p.tracked.removal) (ha : (p.territory cwd fs₀).Allows fs₀ fs)
    (hc : Clearing p cwd fs₀ fs steps) (l : Location) :
    (FileStep.actRegardless cwd steps fs).get? l = fs₀.get? l := by
  -- By induction on the removals to come, which clear whatever is left of the plan.
  induction steps generalizing fs with
  | nil =>
      by_cases hl : (p.territory cwd fs₀).Holds l
      · have hnone : fs.get? l = none := by simpa using hc l hl
        exact hnone.trans (h.get?_eq_none hl).symm
      · exact ha.changesOnly.outside l hl
  | cons step rest ih =>
      have hk := h.keepsDirectories (fun _ hd => hd) ha.changesOnly
      have htree := ha.changesOnly.tree h.tree
      have hfits := h.fits.of_keepsKinds ha.keepsKinds
      have hmem := hs step (by simp)
      exact ih (fun s hm => hs s (List.mem_cons_of_mem _ hm))
        (ha.trans (h.removal_allowed hk htree hmem)) (hc.act h hk htree hfits hmem)

end Housed

/-- What a territory allows to happen to a machine: its files change there alone, and the
directory from which paths are read stays. -/
structure Territory.Admits (t : Territory) (m m' : Machine) : Prop where
  cwd : m'.cwd = m.cwd
  files : t.Allows m.files m'.files

theorem Territory.Admits.refl (t : Territory) (m : Machine) : t.Admits m m := ⟨rfl, .refl t _⟩

theorem Territory.Admits.trans {t : Territory} {m m' m'' : Machine} (h : t.Admits m m')
    (h' : t.Admits m' m'') : t.Admits m m'' :=
  ⟨h'.cwd.trans h.cwd, h.files.trans h'.files⟩

namespace Surroundings

variable {s : Surroundings} {p : Driver.Plan} {m₀ m : Machine}

/-- From a given state of the machine on, the programs of a plan, and whatever runs beside them,
keep to what is tracked for it. -/
structure KeepsTo (s : Surroundings) (p : Driver.Plan) (m₀ : Machine) : Prop where
  pass : ∀ m, (p.territory m₀.cwd m₀.files).Admits m₀ m →
    (p.territory m₀.cwd m₀.files).Admits m (s.pass m)
  start : ∀ inv ∈ p.steps, ∀ limit m, (p.territory m₀.cwd m₀.files).Admits m₀ m →
    (p.territory m₀.cwd m₀.files).Admits m (s.start inv limit m).2

theorem runUntil_admitted (hs : s.KeepsTo p m₀) {steps : List Invocation}
    (hsteps : ∀ inv ∈ steps, inv ∈ p.steps) (limit deadline : Nanos) (last : Text)
    (h : (p.territory m₀.cwd m₀.files).Admits m₀ m) :
    (p.territory m₀.cwd m₀.files).Admits m (s.runUntil limit deadline steps last m).2 := by
  induction steps generalizing last m with
  | nil => exact .refl _ m
  | cons inv rest ih =>
      have hpass := hs.pass m h
      have hrest : ∀ i ∈ rest, i ∈ p.steps := fun i hi => hsteps i (List.mem_cons_of_mem _ hi)
      simp only [runUntil, run]
      split
      · exact hpass
      · have hstart :=
          hs.start inv (hsteps inv (by simp)) (deadline - (s.pass m).clock) _ (h.trans hpass)
        split <;> rename_i hrun <;> obtain ⟨-, rfl⟩ := Prod.mk.inj hrun
        · exact (hpass.trans hstart).trans (ih hrest _ ((h.trans hpass).trans hstart))
        · exact hpass.trans hstart

theorem runSequence_admitted (hs : s.KeepsTo p m₀) (limit : Nanos)
    (h : (p.territory m₀.cwd m₀.files).Admits m₀ m) :
    (p.territory m₀.cwd m₀.files).Admits m (s.runSequence p.steps limit m).2 := by
  have hpass := hs.pass m h
  simp only [runSequence]
  split
  · exact hpass.trans (runUntil_admitted hs (fun _ hi => hi) _ _ _ (h.trans hpass))
  · exact hpass

end Surroundings

namespace Driver.Plan

variable {p : Plan} {fs : FileSystem} {cwd : Location} {home : Path} {id : Text} {e : OsError}

theorem acts_of_lost (hl : p.LiesIn home id) (hid : IsScratchId id) (hd : p.directories = [])
    (he : fs.enter cwd home = .error e) (device : Device) :
    (∃ e', FileStep.actAll device cwd p.writing fs = (some e', fs)) ∧
      FileStep.actRegardless cwd p.tracked.removal fs = fs := by
  have hlost {name : Text} (hn : IsFileName id name) :
      ∃ e', fs.locate cwd (Path.join home name) = .error e' :=
    locate_join_error (hn.isName hid) he
  obtain ⟨name, contents, hn, hf⟩ := hl.file
  have hremove {a : Path} (ha : a ∈ p.tracked.files) :
      ((FileStep.removeFile a).act cwd fs none).2 = fs := by
    have hname : ∃ name, IsFileName id name ∧ a = Path.join home name := by
      rw [tracked_files, List.mem_append] at ha
      rcases ha with ha | ha
      · exact ⟨name, hn, by simpa [hf] using ha⟩
      · exact hl.outputs a ha
    obtain ⟨other, hother, rfl⟩ := hname
    obtain ⟨e', he'⟩ := hlost hother
    simp [FileStep.act, removeFile, he', orKeep, bind, Except.bind]
  constructor
  · obtain ⟨e', he'⟩ := hlost hn
    have hlast := Path.getLast?_join_ne (hn.isName hid) home
    have hwrite (written : Bytes) : ∃ e, fs.write cwd (Path.join home name) written = .error e :=
      ⟨e', by simp [write, locateFile_eq hlast, he', bind, Except.bind]⟩
    obtain ⟨failure, hfails⟩ := writeThrough_of_error hwrite (Utf8.encode contents)
      (device fs (Path.join home name))
    refine ⟨failure, ?_⟩
    simp [writing, hd, hf, FileStep.actAll, FileStep.act, FileStep.path, hfails]
  · have hsteps : p.tracked.removal = p.tracked.files.map .removeFile := by
      simp [ScratchSet.removal, tracked_directories, hd]
    rw [hsteps]
    clear hsteps
    generalize p.tracked.files = files at hremove
    induction files with
    | nil => rfl
    | cons a rest ih =>
        have hrest : FileStep.actRegardless cwd (rest.map .removeFile) fs = fs :=
          ih fun ha => hremove (List.mem_cons_of_mem _ ha)
        rw [List.map_cons, FileStep.actRegardless, List.foldl_cons, hremove (by simp)]
        exact hrest

end Driver.Plan

namespace Dispatcher

open Driver

variable {d : Dispatcher} {s : Surroundings} {r : Request} {m₀ m : Machine} {p : Plan}

/-- The plan that an execution carries out, if it gets as far as that. -/
def planFor? (d : Dispatcher) (r : Request) (m : Machine) : Option Plan :=
  match validate r m with
  | .error _ => none
  | .ok (path, text) => (d.context r path text (drawId m).1).plan.toOption

theorem buildAndRun_tracked (d : Dispatcher) (s : Surroundings) (language : Language) (p : Plan)
    (m : Machine) : (d.buildAndRun s language p m).1 = p.tracked := by
  simp only [buildAndRun, ScratchSet.materialize]
  split
  · rfl
  · split <;> rfl

/-- However an execution ends, what it tracked is removed. -/
theorem settle_eq_cleanup (set : ScratchSet) (cwd : Location) (files : FileSystem)
    (completion : Completion) : settle set cwd files completion = (set.cleanup cwd files).2 := by
  cases completion with
  | outcome o => rfl
  | brokenOff => exact set.drop_eq_cleanup cwd files

theorem buildAndRun_admitted {dir : Location} {home : Path} {id : Text}
    (h : Housed m₀.files m₀.cwd dir home id p) (hs : s.KeepsTo p m₀) (language : Language)
    (ha : (p.territory m₀.cwd m₀.files).Admits m₀ m) :
    (p.territory m₀.cwd m₀.files).Admits m₀ (d.buildAndRun s language p m).2.2 := by
  have hwritten : (p.territory m₀.cwd m₀.files).Admits m₀
      { m with files := (FileStep.actAll s.device m.cwd p.writing m.files).2 } :=
    ⟨ha.cwd, by
      rw [ha.cwd]
      exact h.actAll_allowed (fun _ hstep => hstep) ha.files s.device⟩
  simp only [buildAndRun, ScratchSet.materialize]
  split
  · exact hwritten
  · have hrun := hwritten.trans
      (Surroundings.runSequence_admitted hs (d.limitFor language) hwritten)
    split <;> rename_i heq <;> rw [heq] at hrun <;> exact hrun

theorem housed_or_lost {path : Path} {text : Text} (tree : m.files.IsTree)
    (hv : validate r m = .ok (path, text))
    (hp : (d.context r path text (drawId m).1).plan = .ok p)
    (fresh : ∀ a ∈ p.artifacts, m.files.pathExists m.cwd a = false) :
    (∃ dir, Housed m.files m.cwd dir (d.context r path text (drawId m).1).home (drawId m).1 p) ∨
      (∃ e, FileStep.actAll s.device m.cwd p.writing m.files = (some e, m.files)) ∧
        FileStep.actRegardless m.cwd p.tracked.removal m.files = m.files := by
  have hlies := plan_liesIn hp
  have hid : IsScratchId (drawId m).1 := isScratchId_scratchId _ _ _
  cases he : m.files.enter m.cwd (d.context r path text (drawId m).1).home with
  | ok dir => exact .inl ⟨dir, tree, hid, hlies, he, fresh⟩
  | error e =>
      have hdirectories : p.directories = [] := by
        rcases plan_directories hp with hd | ⟨place, hplace, hhome⟩
        · exact hd
        · obtain ⟨dir, hdir⟩ := enter_of_validate hv hplace
          rw [hhome, hdir] at he
          contradiction
      exact .inr (Plan.acts_of_lost hlies hid hdirectories he s.device)

theorem buildAndRun_lost {e : OsError} (language : Language)
    (he : FileStep.actAll s.device m.cwd p.writing m.files = (some e, m.files)) :
    d.buildAndRun s language p m =
      (p.tracked, .outcome (.failure ("Failed to write driver: ".toList ++ e.message)), m) := by
  simp only [buildAndRun, ScratchSet.materialize, he]
  rfl

/-- If nothing of its plan was there before, and the programs it runs keep to what is tracked,
then an execution leaves all files as they were, whatever way it ends. -/
theorem execute_restores (d : Dispatcher) (s : Surroundings) (r : Request) (m : Machine)
    (tree : m.files.IsTree)
    (fresh : ∀ p, d.planFor? r m = some p → ∀ a ∈ p.artifacts,
      m.files.pathExists m.cwd a = false)
    (tools : ∀ p, d.planFor? r m = some p → s.KeepsTo p m) (l : Location) :
    (d.execute s r m).2.files.get? l = m.files.get? l := by
  rw [execute]
  rw [planFor?] at fresh tools
  cases hv : validate r m with
  | error failure => rfl
  | ok source =>
      obtain ⟨path, text⟩ := source
      simp only [hv] at fresh tools ⊢
      cases hp : (d.context r path text (drawId m).1).plan with
      | error e => rfl
      | ok p =>
          simp only [hp, Except.toOption, Option.some.injEq, forall_eq'] at fresh tools ⊢
          rcases housed_or_lost tree hv hp fresh with ⟨dir, h⟩ | ⟨⟨e, hlost⟩, hremove⟩
          · have ha := buildAndRun_admitted (d := d) h tools r.language
              (m := (drawId m).2) ⟨rfl, .refl _ _⟩
            simp only [settle_eq_cleanup, ScratchSet.cleanup, buildAndRun_tracked, ha.cwd]
            exact h.get?_actRegardless (fun _ hs => hs) ha.files (Housed.clearing_removal p _ _ _) l
          · rw [buildAndRun_lost (m := (drawId m).2) r.language hlost]
            simp only [settle_eq_cleanup]
            exact congrArg (·.get? l) hremove

def oneClass : Machine where
  files := ⟨[(["s".toList], .directory), (["s".toList, "A.java".toList], .file [] false)]⟩
  clock := 0

def oneClassRequest : Request := .ofFile "f".toList [] "/s/A.java".toList

def plainDispatcher : Dispatcher := { toolchain := {}, scratchDirectory := "/t".toList }

def oneClassPlan : Plan :=
  (plainDispatcher.context oneClassRequest "/s/A.java".toList [] "0_1_0".toList).javaPlan
    ⟨"/s".toList, "A.java".toList, "A".toList⟩

def classFiles : Location := ["s".toList, "sentinel_classes_0_1_0".toList]

def classWriter (device : Device) : Surroundings where
  pass m := m
  start _ _ m := (.finished (.exited 0) [] [], { m with
    files := if m.files.get? classFiles = some .directory ∧
        m.files.get? (classFiles ++ ["A.class".toList]) ≠ some .directory then
      m.files.put (classFiles ++ ["A.class".toList]) (.file [] false) else m.files })
  device := device

def runnerFile : Location := ["s".toList, "SentinelRunner_0_1_0.java".toList]

def fullDevice : Device := fun _ a =>
  if a = runnerFile.path then some ⟨.noSpace, some 6⟩ else none

def endlessDispatcher : Dispatcher :=
  { plainDispatcher with compileLimit := Nanos.ofSeconds (Nanos.maxSeconds + 1) }

theorem planFor?_oneClass : plainDispatcher.planFor? oneClassRequest oneClass = some oneClassPlan :=
  rfl

theorem territory_oneClass : oneClassPlan.territory oneClass.cwd oneClass.files =
    ⟨[runnerFile], [classFiles]⟩ := rfl

theorem classWriter_keepsTo (device : Device) :
    (classWriter device).KeepsTo oneClassPlan oneClass := by
  constructor <;> rw [territory_oneClass]
  · exact fun m _ => ⟨rfl, .refl _ _⟩
  · intro inv _ limit m _
    refine ⟨rfl, ?_⟩
    simp only [classWriter]
    split
    · rename_i hplace
      refine ⟨Territory.changesOnly_put (.inr ⟨classFiles, by simp, List.prefix_append _ _⟩)
        hplace.1 (.inr hplace.2), Territory.keepsKinds_put (by simp) (by simp) ?_⟩
      intro htree
      exact absurd htree (by decide)
    · exact .refl _ _

theorem execute_restores_oneClass : oneClass.files.IsTree ∧
    (∀ p, plainDispatcher.planFor? oneClassRequest oneClass = some p →
      (∀ a ∈ p.artifacts, oneClass.files.pathExists oneClass.cwd a = false) ∧
        ∀ device, (classWriter device).KeepsTo p oneClass) ∧
    (∀ l, (plainDispatcher.execute (classWriter .sound) oneClassRequest oneClass).2.files.get? l =
      oneClass.files.get? l) ∧
    ((oneClassPlan.written fullDevice oneClass.cwd oneClass.files).get? runnerFile =
        some (.file (Utf8.encode "public".toList) false) ∧
      ∀ l, (plainDispatcher.execute (classWriter fullDevice) oneClassRequest
        oneClass).2.files.get? l = oneClass.files.get? l) ∧
    (endlessDispatcher.execute (classWriter .sound) oneClassRequest oneClass).1 = .brokenOff ∧
    ∀ l, (endlessDispatcher.execute (classWriter .sound) oneClassRequest
      oneClass).2.files.get? l = oneClass.files.get? l := by
  have htree : oneClass.files.IsTree := isTree_of_entries (by decide)
  have hfresh : ∀ a ∈ oneClassPlan.artifacts,
      oneClass.files.pathExists oneClass.cwd a = false := by decide
  have hplan : ∀ p, plainDispatcher.planFor? oneClassRequest oneClass = some p →
      (∀ a ∈ p.artifacts, oneClass.files.pathExists oneClass.cwd a = false) ∧
        ∀ device, (classWriter device).KeepsTo p oneClass := by
    intro p hp
    obtain rfl := Option.some.inj (planFor?_oneClass.symm.trans hp)
    exact ⟨hfresh, classWriter_keepsTo⟩
  have hrestored (device : Device) (l : Location) :
      (plainDispatcher.execute (classWriter device) oneClassRequest oneClass).2.files.get? l =
        oneClass.files.get? l :=
    execute_restores _ _ _ _ htree (fun p hp => (hplan p hp).1) (fun p hp => (hplan p hp).2 device) l
  have hendless : ∀ l, (endlessDispatcher.execute (classWriter .sound) oneClassRequest
      oneClass).2.files.get? l = oneClass.files.get? l :=
    execute_restores _ _ _ _ htree (fun p hp => (hplan p hp).1) fun p hp => (hplan p hp).2 .sound
  exact ⟨htree, hplan, hrestored .sound, ⟨by decide +kernel, hrestored fullDevice⟩,
    by decide +kernel, hendless⟩

end Dispatcher

end SoloCall
