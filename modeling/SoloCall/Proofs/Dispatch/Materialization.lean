import SoloCall.Proofs.Dispatch.Growth

namespace SoloCall

open FileSystem

namespace FileStep

theorem actAll_append (device : Device) (cwd : Location) (xs ys : List FileStep)
    (fs : FileSystem) :
    actAll device cwd (xs ++ ys) fs = match actAll device cwd xs fs with
      | (none, fs) => actAll device cwd ys fs
      | (some e, fs) => (some e, fs) := by
  induction xs generalizing fs with
  | nil => rfl
  | cons step xs ih =>
      rw [List.cons_append, actAll, actAll]
      cases step.act cwd fs (device fs step.path) with
      | mk e? fs' =>
          cases e? with
          | none => exact ih fs'
          | some e => rfl

theorem actRegardless_append (cwd : Location) (xs ys : List FileStep) (fs : FileSystem) :
    actRegardless cwd (xs ++ ys) fs = actRegardless cwd ys (actRegardless cwd xs fs) :=
  List.foldl_append

end FileStep

/-- Whatever was there at first is as it was, and so is every location outside of the territory. -/
def Territory.Spares (t : Territory) (fs fs' : FileSystem) : Prop :=
  ∀ l, fs'.get? l = fs.get? l ∨ fs.get? l = none ∧ t.Holds l

namespace Driver.Plan

variable {p : Plan} {device : Device} {fs₀ fs : FileSystem} {cwd : Location} {a : Path}
  {dirs : List Path}

def made (p : Plan) (device : Device) (cwd : Location) (fs : FileSystem) : FileSystem :=
  (FileStep.actAll device cwd (p.directories.map .makeDirectories) fs).2

/-- Nothing that the plan names is there, but each of its directories has one to be made in. -/
structure IsNew (p : Plan) (cwd : Location) (fs : FileSystem) : Prop where
  tree : fs.IsTree
  fresh : ∀ a ∈ p.artifacts, fs.pathExists cwd a = false
  parents : ∀ a ∈ p.directories, ∀ above, Path.parent? a = some above →
    fs.pathExists cwd (directoryOf above) = true

theorem IsNew.slot (h : p.IsNew cwd fs₀) (ha : a ∈ p.directories) (fs : FileSystem) (l : Location)
    (hext : fs₀.Extends fs) (hl : fs.locate cwd a = .ok l) : fs₀.Slot cwd a l :=
  .of_locate h.tree (h.fresh a (mem_artifacts.2 (.inr ha))) (h.parents a ha) hext hl

theorem IsNew.grown_actAll (h : p.IsNew cwd fs₀) (hd : dirs ⊆ p.directories)
    (hg : Grown fs₀ cwd p.directories fs) (tree : fs.IsTree) :
    Grown fs₀ cwd p.directories (FileStep.actAll device cwd (dirs.map .makeDirectories) fs).2 ∧
      (FileStep.actAll device cwd (dirs.map .makeDirectories) fs).2.IsTree ∧
      fs.Extends (FileStep.actAll device cwd (dirs.map .makeDirectories) fs).2 := by
  induction dirs generalizing fs with
  | nil => exact ⟨hg, tree, .refl fs⟩
  | cons a dirs ih =>
      have ha : a ∈ p.directories := hd List.mem_cons_self
      have hrest : dirs ⊆ p.directories := fun b hb => hd (List.mem_cons_of_mem a hb)
      have hstep := hg.makeDirectories tree ha (h.parents a ha) (h.slot ha) (device fs a)
      rw [List.map_cons, FileStep.actAll]
      cases hmade : (FileStep.makeDirectories a).act cwd fs (device fs a) with
      | mk e? fs' =>
          rw [hmade] at hstep
          obtain ⟨hgrown, htree, hext⟩ := hstep
          simp only [FileStep.path, hmade]
          cases e? with
          | none =>
              obtain ⟨hmore, htree', hext'⟩ := ih hrest hgrown htree
              exact ⟨hmore, htree', hext.trans hext'⟩
          | some e => exact ⟨hgrown, htree, hext⟩

theorem IsNew.grown_made (h : p.IsNew cwd fs₀) :
    Grown fs₀ cwd p.directories (p.made device cwd fs₀) :=
  (h.grown_actAll (List.Subset.refl _) (.refl _ _ _) h.tree).1

theorem IsNew.grown_take (h : p.IsNew cwd fs₀) (k : Nat) :
    Grown fs₀ cwd p.directories
        (FileStep.actAll device cwd ((p.directories.take k).map .makeDirectories) fs₀).2 ∧
      (FileStep.actAll device cwd ((p.directories.take k).map .makeDirectories) fs₀).2.Extends
        (p.made device cwd fs₀) := by
  obtain ⟨hgrown, htree, -⟩ := h.grown_actAll (List.take_subset k p.directories)
    (.refl fs₀ cwd p.directories) h.tree
  refine ⟨hgrown, ?_⟩
  have hsplit : p.directories.map FileStep.makeDirectories =
      (p.directories.take k).map .makeDirectories ++
        (p.directories.drop k).map .makeDirectories := by
    rw [← List.map_append, List.take_append_drop]
  rw [made, hsplit, FileStep.actAll_append]
  cases hk : FileStep.actAll device cwd ((p.directories.take k).map .makeDirectories) fs₀ with
  | mk e? fs =>
      rw [hk] at hgrown htree
      cases e? with
      | none => exact (h.grown_actAll (List.drop_subset k p.directories) hgrown htree).2.2
      | some e => exact .refl fs

theorem filled_actAll {made : FileSystem} {files : List ScratchFile}
    (hoff : ∀ a ∈ p.tracked.files, made.LeadsToNoFile cwd a) (hf : files ⊆ p.files)
    (h : Filled made cwd p.tracked.files fs) :
    Filled made cwd p.tracked.files
      (FileStep.actAll device cwd (files.map fun f => .write f.path f.contents) fs).2 := by
  induction files generalizing fs with
  | nil => exact h
  | cons f files ih =>
      have ha : f.path ∈ p.tracked.files :=
        List.mem_append_left _ (List.mem_map_of_mem (hf List.mem_cons_self))
      have hrest : files ⊆ p.files := fun g hg => hf (List.mem_cons_of_mem f hg)
      have hstep := h.writeThrough ha (hoff _ ha) (Utf8.encode f.contents) (device fs f.path)
      rw [List.map_cons, FileStep.actAll]
      simp only [FileStep.act, FileStep.path]
      cases hw : fs.writeThrough cwd f.path (Utf8.encode f.contents) (device fs f.path) with
      | mk e? fs' =>
          rw [hw] at hstep
          cases e? with
          | none => exact ih hrest hstep
          | some e => exact hstep

theorem filled_actRegardless {made : FileSystem} {gone rest : List Path}
    (hoff : ∀ a ∈ gone, made.LeadsToNoFile cwd a) (h : Filled made cwd (gone ++ rest) fs) :
    Filled made cwd rest (FileStep.actRegardless cwd (gone.map .removeFile) fs) := by
  induction gone generalizing fs with
  | nil => exact h
  | cons a gone ih =>
      have hstep := Filled.removeFile h (hoff a List.mem_cons_self)
      exact ih (fun b hb => hoff b (List.mem_cons_of_mem a hb)) hstep

theorem IsNew.grown_actRegardless (h : p.IsNew cwd fs₀) {gone rest : List Path}
    (hd : gone ⊆ p.directories) (hg : Grown fs₀ cwd (gone ++ rest) fs) :
    Grown fs₀ cwd rest (FileStep.actRegardless cwd (gone.map .removeTree) fs) ∧
      (FileStep.actRegardless cwd (gone.map .removeTree) fs).Extends fs := by
  induction gone generalizing fs with
  | nil => exact ⟨hg, .refl fs⟩
  | cons a gone ih =>
      have ha : a ∈ p.directories := hd List.mem_cons_self
      obtain ⟨hstep, hsub⟩ := Grown.removeTree hg h.tree (h.slot ha)
      obtain ⟨hmore, hsub'⟩ := ih (fun b hb => hd (List.mem_cons_of_mem a hb)) hstep
      exact ⟨hmore, hsub'.trans hsub⟩

/-- No file and no output leads, by way of the directories that are made, to a file that was
there. -/
def KeepsOffFiles (p : Plan) (device : Device) (cwd : Location) (fs : FileSystem) : Prop :=
  ∀ a ∈ p.tracked.files, (p.made device cwd fs).LeadsToNoFile cwd a

instance (p : Plan) (device : Device) (cwd : Location) (fs : FileSystem) :
    Decidable (p.KeepsOffFiles device cwd fs) :=
  inferInstanceAs (Decidable (∀ a ∈ p.tracked.files, _))

theorem spares_of_grown (h : Grown fs₀ cwd dirs fs) (hd : dirs ⊆ p.directories)
    (hm : fs.Extends (p.made device cwd fs₀)) (hmade : fs₀.Extends (p.made device cwd fs₀)) :
    (p.territory cwd (p.made device cwd fs₀)).Spares fs₀ fs := by
  intro l
  cases hl : fs.get? l with
  | none =>
      cases hold : fs₀.get? l with
      | none => exact .inl rfl
      | some e =>
          rw [h.extends_old l e hold] at hl
          cases hl
  | some e =>
      rcases h.new l e hl with hold | ⟨rfl, a, ha, hslot, -⟩
      · exact .inl hold.symm
      · have hlead := hslot.leads _ hmade (hm l _ hl)
        exact .inr ⟨hslot.missing, .inr ⟨l, mem_territory_trees.2 ⟨a, hd ha, hlead⟩,
          List.prefix_rfl⟩⟩

theorem IsNew.spares_of_filled (h : p.IsNew cwd fs₀) {files : List Path}
    (hf : Filled (p.made device cwd fs₀) cwd files fs) (hfiles : files ⊆ p.tracked.files) :
    (p.territory cwd (p.made device cwd fs₀)).Spares fs₀ fs := by
  have hmade : Grown fs₀ cwd p.directories (p.made device cwd fs₀) := h.grown_made
  intro l
  cases hl : fs.get? l with
  | none =>
      cases hold : fs₀.get? l with
      | none => exact .inl rfl
      | some e =>
          rw [hf.extends_made l e (hmade.extends_old l e hold)] at hl
          cases hl
  | some e =>
      rcases hf.new l e hl with hold | ⟨hnone, -, a, ha, hlead⟩
      · rw [← hold]
        exact spares_of_grown hmade (List.Subset.refl _) (.refl _) hmade.extends_old l
      · refine .inr ⟨?_, .inl (mem_territory_files.2 ⟨a, hfiles ha, hlead⟩)⟩
        cases hold : fs₀.get? l with
        | none => rfl
        | some e =>
            rw [hmade.extends_old l e hold] at hnone
            cases hnone

theorem KeepsOffFiles.filled {files : List ScratchFile} (hoff : p.KeepsOffFiles device cwd fs₀)
    (hf : files ⊆ p.files) :
    Filled (p.made device cwd fs₀) cwd p.tracked.files
      (FileStep.actAll device cwd (p.directories.map .makeDirectories ++
        files.map fun f => .write f.path f.contents) fs₀).2 := by
  rw [FileStep.actAll_append]
  cases hd : FileStep.actAll device cwd (p.directories.map .makeDirectories) fs₀ with
  | mk e? fs =>
      have hmade : p.made device cwd fs₀ = fs := by rw [made, hd]
      rw [KeepsOffFiles, hmade] at hoff
      rw [hmade]
      cases e? with
      | none => exact filled_actAll hoff hf (.refl fs cwd _)
      | some e => exact .refl fs cwd _

theorem IsNew.spares_writing (h : p.IsNew cwd fs₀) (hoff : p.KeepsOffFiles device cwd fs₀) (k : Nat) :
    (p.territory cwd (p.made device cwd fs₀)).Spares fs₀
      (FileStep.actAll device cwd (p.writing.take k) fs₀).2 := by
  by_cases hk : k ≤ p.directories.length
  · have htake : p.writing.take k = (p.directories.take k).map .makeDirectories := by
      rw [writing, List.take_append_of_le_length (by simpa using hk), List.map_take]
    obtain ⟨hgrown, hext⟩ := h.grown_take k
    rw [htake]
    exact spares_of_grown hgrown (List.Subset.refl _) hext h.grown_made.extends_old
  · have htake : p.writing.take k = p.directories.map .makeDirectories ++
        (p.files.take (k - p.directories.length)).map fun f => .write f.path f.contents := by
      rw [writing, List.take_append, List.take_of_length_le (by simp; omega), List.map_take,
        List.length_map]
    rw [htake]
    exact h.spares_of_filled (hoff.filled (List.take_subset _ _)) (List.Subset.refl _)

def written (p : Plan) (device : Device) (cwd : Location) (fs : FileSystem) : FileSystem :=
  (FileStep.actAll device cwd p.writing fs).2

theorem KeepsOffFiles.filled_written (hoff : p.KeepsOffFiles device cwd fs₀) :
    Filled (p.made device cwd fs₀) cwd p.tracked.files (p.written device cwd fs₀) :=
  hoff.filled (List.Subset.refl _)

theorem IsNew.grown_removed (h : p.IsNew cwd fs₀) (hoff : p.KeepsOffFiles device cwd fs₀) :
    Grown fs₀ cwd p.directories
        (FileStep.actRegardless cwd (p.tracked.files.map .removeFile) (p.written device cwd fs₀)) ∧
      (FileStep.actRegardless cwd (p.tracked.files.map .removeFile) (p.written device cwd fs₀)).Extends
        (p.made device cwd fs₀) := by
  have hfilled := hoff.filled_written
  rw [← List.append_nil p.tracked.files] at hfilled
  have hsame := (filled_actRegardless hoff hfilled).get?_eq_of_nil
  exact ⟨h.grown_made.congr hsame, fun l e hl => (hsame l).symm.trans hl⟩

theorem IsNew.spares_removal (h : p.IsNew cwd fs₀) (hoff : p.KeepsOffFiles device cwd fs₀) (k : Nat) :
    (p.territory cwd (p.made device cwd fs₀)).Spares fs₀
      (FileStep.actRegardless cwd (p.tracked.removal.take k) (p.written device cwd fs₀)) := by
  by_cases hk : k ≤ p.tracked.files.length
  · have htake : p.tracked.removal.take k = (p.tracked.files.take k).map .removeFile := by
      rw [ScratchSet.removal, List.take_append_of_le_length (by simpa using hk), List.map_take]
    have hfilled := hoff.filled_written
    rw [← List.take_append_drop k p.tracked.files] at hfilled
    rw [htake]
    apply h.spares_of_filled (filled_actRegardless ?_ hfilled) (List.drop_subset _ _)
    exact fun a ha => hoff a (List.take_subset _ _ ha)
  · have htake : p.tracked.removal.take k = p.tracked.files.map .removeFile ++
        (p.directories.take (k - p.tracked.files.length)).map .removeTree := by
      rw [ScratchSet.removal, List.take_append, List.take_of_length_le (by simp; omega),
        List.map_take, List.length_map]
      rfl
    obtain ⟨hgrown, hext⟩ := h.grown_removed hoff
    rw [← List.take_append_drop (k - p.tracked.files.length) p.directories] at hgrown
    obtain ⟨hleft, hsub⟩ := h.grown_actRegardless (List.take_subset _ _) hgrown
    rw [htake, FileStep.actRegardless_append]
    exact spares_of_grown hleft (List.drop_subset _ _) (hsub.trans hext) h.grown_made.extends_old

theorem IsNew.get?_removal (h : p.IsNew cwd fs₀) (hoff : p.KeepsOffFiles device cwd fs₀) (l : Location) :
    (FileStep.actRegardless cwd p.tracked.removal (p.written device cwd fs₀)).get? l = fs₀.get? l := by
  have hgrown := (h.grown_removed hoff).1
  rw [← List.append_nil p.directories] at hgrown
  rw [ScratchSet.removal, FileStep.actRegardless_append]
  exact (h.grown_actRegardless (List.Subset.refl _) hgrown).1.get?_eq_of_nil l

end Driver.Plan

namespace ScratchSet

variable {p : Driver.Plan} {device : Device} {cwd : Location} {fs : FileSystem}

theorem drop_eq_cleanup (s : ScratchSet) (cwd : Location) (fs : FileSystem) :
    s.drop cwd fs = (s.cleanup cwd fs).2 := by
  rw [cleanup, removal, FileStep.actRegardless_append, FileStep.actRegardless,
    FileStep.actRegardless, List.foldl_map, List.foldl_map]
  rfl

/-- What becomes of a file system when a set has written a plan, with whatever success: the set
tracks all of the plan, and being cleaned up or dropped it gives everything back, having touched
nothing else at any time. -/
structure GivesBack (p : Driver.Plan) (device : Device) (cwd : Location) (fs : FileSystem)
    (set : ScratchSet) (written : FileSystem) : Prop where
  tracked : ∀ a ∈ p.artifacts, a ∈ set.paths
  emptied : (set.cleanup cwd written).1.isEmpty = true
  restored : ∀ l, (set.cleanup cwd written).2.get? l = fs.get? l
  dropped : set.drop cwd written = (set.cleanup cwd written).2
  cleaned_again : (set.cleanup cwd written).1.cleanup cwd (set.cleanup cwd written).2 =
    set.cleanup cwd written
  dropped_again : (set.cleanup cwd written).1.drop cwd (set.cleanup cwd written).2 =
    (set.cleanup cwd written).2
  spared_by_writing : ∀ k, (p.territory cwd (p.made device cwd fs)).Spares fs
    (FileStep.actAll device cwd (p.writing.take k) fs).2
  spared_by_removal : ∀ k, (p.territory cwd (p.made device cwd fs)).Spares fs
    (FileStep.actRegardless cwd (set.removal.take k) written)

/-- A plan of which nothing is there yet is tracked, written and removed without a trace, unless
one of its directories opens the way to a file for one of its files or outputs. -/
theorem materialize_givesBack (new : p.IsNew cwd fs) (off : p.KeepsOffFiles device cwd fs) :
    GivesBack p device cwd fs (materialize {} device cwd p fs).1
      (materialize {} device cwd p fs).2.2 where
  tracked a ha := by
    rcases Driver.Plan.mem_artifacts.1 ha with ha | ha
    · exact List.mem_append_left _ ha
    · exact List.mem_append_right _ ha
  emptied := rfl
  restored := new.get?_removal off
  dropped := drop_eq_cleanup _ cwd _
  cleaned_again := rfl
  dropped_again := rfl
  spared_by_writing := new.spares_writing off
  spared_by_removal := new.spares_removal off

def nestedPlan : Driver.Plan where
  files := [⟨"/w/d/a".toList, "x".toList⟩, ⟨"/w/d".toList, []⟩]
  directories := ["/w/d".toList]
  outputs := ["/w/d/../o".toList]
  run := ⟨[], [], []⟩

def oneFile : FileSystem := ⟨[(["w".toList], .directory), (["w".toList, "f".toList], .file [] false)]⟩

theorem isNew_nestedPlan : nestedPlan.IsNew [] oneFile := by
  refine ⟨isTree_of_entries (by decide), by decide, ?_⟩
  intro a ha above habove
  obtain rfl := List.mem_singleton.1 ha
  obtain rfl : "/w".toList = above := Option.some.inj habove
  decide

theorem materialize_givesBack_nested :
    nestedPlan.IsNew [] oneFile ∧ nestedPlan.KeepsOffFiles .sound [] oneFile ∧
      (materialize {} .sound [] nestedPlan oneFile).2.1 = some .isADirectory ∧
      GivesBack nestedPlan .sound [] oneFile (materialize {} .sound [] nestedPlan oneFile).1
        (materialize {} .sound [] nestedPlan oneFile).2.2 := by
  have hoff : nestedPlan.KeepsOffFiles .sound [] oneFile := by decide
  exact ⟨isNew_nestedPlan, hoff, by decide, materialize_givesBack isNew_nestedPlan hoff⟩

def detour : Driver.Plan where
  files := [⟨"/w/d/../f".toList, "x".toList⟩]
  directories := ["/w/d".toList]
  run := ⟨[], [], []⟩

theorem cleanup_loses_file :
    ¬∀ (p : Driver.Plan) (cwd : Location) (fs : FileSystem), p.IsNew cwd fs → ∀ l,
      ((materialize {} .sound cwd p fs).1.cleanup cwd
        (materialize {} .sound cwd p fs).2.2).2.get? l = fs.get? l := by
  intro hall
  have hnew : detour.IsNew [] oneFile := by
    refine ⟨isTree_of_entries (by decide), by decide, ?_⟩
    intro a ha above habove
    obtain rfl := List.mem_singleton.1 ha
    obtain rfl : "/w".toList = above := Option.some.inj habove
    decide
  have hlost := hall detour [] oneFile hnew ["w".toList, "f".toList]
  revert hlost
  decide

end ScratchSet

end SoloCall
