import Mathlib.Data.List.Basic
import SoloCall.Proofs.Driver.Artifacts
import SoloCall.Proofs.FileSystem.Effect

namespace SoloCall

open FileSystem

namespace Driver.Plan

def tracked (p : Plan) : ScratchSet := ScratchSet.track {} p

/-- The locations of what is tracked. A path that leads nowhere has none. -/
def territory (p : Plan) (cwd : Location) (fs : FileSystem) : Territory where
  files := p.tracked.files.filterMap fun a => (fs.locate cwd a).toOption
  trees := p.tracked.directories.filterMap fun a => (fs.locate cwd a).toOption

theorem tracked_files (p : Plan) : p.tracked.files = p.files.map ScratchFile.path ++ p.outputs :=
  rfl

theorem tracked_directories (p : Plan) : p.tracked.directories = p.directories := rfl

theorem mem_artifacts {p : Plan} {a : Path} :
    a ∈ p.artifacts ↔ a ∈ p.tracked.files ∨ a ∈ p.tracked.directories := by
  simp [artifacts, tracked_files, tracked_directories, or_assoc]

variable {p : Plan} {cwd l : Location} {fs : FileSystem}

theorem mem_located {paths : List Path} :
    l ∈ paths.filterMap (fun a => (fs.locate cwd a).toOption) ↔
      ∃ a ∈ paths, fs.locate cwd a = .ok l := by
  rw [List.mem_filterMap]
  constructor <;> rintro ⟨a, ha, hl⟩ <;> refine ⟨a, ha, ?_⟩
  · cases hr : fs.locate cwd a with
    | error e => simp [hr, Except.toOption] at hl
    | ok m => simpa [hr, Except.toOption] using hl
  · rw [hl]
    rfl

theorem mem_territory_files :
    l ∈ (p.territory cwd fs).files ↔ ∃ a ∈ p.tracked.files, fs.locate cwd a = .ok l := mem_located

theorem mem_territory_trees :
    l ∈ (p.territory cwd fs).trees ↔ ∃ a ∈ p.tracked.directories, fs.locate cwd a = .ok l :=
  mem_located

end Driver.Plan

theorem FileSystem.get?_of_not_pathExists {fs : FileSystem} {cwd l : Location} {a : Path}
    (h : fs.pathExists cwd a = false) (hl : fs.locate cwd a = .ok l) : fs.get? l = none := by
  cases he : fs.get? l with
  | none => rfl
  | some e => simp [pathExists, stat, hl, he, bind, Except.bind] at h

/-- A plan whose artifacts are names in a directory that is there, and of which nothing is there
yet. -/
structure Housed (fs₀ : FileSystem) (cwd dir : Location) (home : Path) (id : Text)
    (p : Driver.Plan) : Prop where
  tree : fs₀.IsTree
  isId : IsScratchId id
  liesIn : p.LiesIn home id
  entered : fs₀.enter cwd home = .ok dir
  fresh : ∀ a ∈ p.artifacts, fs₀.pathExists cwd a = false

namespace Housed

open Driver

variable {fs₀ fs fs' : FileSystem} {cwd dir l : Location} {home a : Path} {id : Text} {p : Plan}

theorem holds_of_locate (ha : a ∈ p.artifacts) (hl : fs₀.locate cwd a = .ok l) :
    (p.territory cwd fs₀).Holds l := by
  rcases Plan.mem_artifacts.1 ha with ha | ha
  · exact .inl (Plan.mem_territory_files.2 ⟨a, ha, hl⟩)
  · exact .inr ⟨l, Plan.mem_territory_trees.2 ⟨a, ha, hl⟩, List.prefix_rfl⟩

theorem exists_fileName (h : Housed fs₀ cwd dir home id p) (ha : a ∈ p.tracked.files) :
    ∃ name, IsFileName id name ∧ a = Path.join home name := by
  rw [Plan.tracked_files, List.mem_append] at ha
  rcases ha with ha | ha
  · obtain ⟨name, contents, hn, hf⟩ := h.liesIn.file
    exact ⟨name, hn, by simpa [hf] using ha⟩
  · exact h.liesIn.outputs a ha

theorem exists_treeName (h : Housed fs₀ cwd dir home id p) (ha : a ∈ p.tracked.directories) :
    ∃ name, IsTreeName id name ∧ a = Path.join home name := h.liesIn.directories a ha

theorem locate_eq (h : Housed fs₀ cwd dir home id p) (hk : KeepsDirectories fs₀ fs)
    (ha : a ∈ p.artifacts) : fs.locate cwd a = fs₀.locate cwd a := by
  obtain ⟨name, hn, rfl⟩ := h.liesIn.exists_name h.isId ha
  have hself : KeepsDirectories fs₀ fs₀ := fun _ hd => hd
  rcases locate_join_cases hn h.entered with ⟨e, -, he⟩ | hl
  · rw [he fs hk, he fs₀ hself]
  · rw [hl fs hk, hl fs₀ hself]

theorem territory_eq (h : Housed fs₀ cwd dir home id p) (hk : KeepsDirectories fs₀ fs) :
    p.territory cwd fs = p.territory cwd fs₀ := by
  rw [Plan.territory]
  congr 1 <;> apply List.filterMap_congr <;> intro a ha
  · rw [h.locate_eq hk (Plan.mem_artifacts.2 (.inl ha))]
  · rw [h.locate_eq hk (Plan.mem_artifacts.2 (.inr ha))]

theorem location_of_join {name : Text} (hn : Path.IsName name) (he : fs₀.enter cwd home = .ok dir)
    (hl : fs₀.locate cwd (Path.join home name) = .ok l) : l = dir ++ [name] := by
  have hself : KeepsDirectories fs₀ fs₀ := fun _ hd => hd
  rcases locate_join_cases hn he with ⟨e, -, hlost⟩ | hat
  · simp [hlost fs₀ hself] at hl
  · simpa [hat fs₀ hself, eq_comm] using hl

theorem fileName_of_mem (h : Housed fs₀ cwd dir home id p) (hl : l ∈ (p.territory cwd fs₀).files) :
    ∃ name, IsFileName id name ∧ l = dir ++ [name] := by
  obtain ⟨a, ha, hl⟩ := Plan.mem_territory_files.1 hl
  obtain ⟨name, hn, rfl⟩ := h.exists_fileName ha
  exact ⟨name, hn, location_of_join (hn.isName h.isId) h.entered hl⟩

theorem treeName_of_mem (h : Housed fs₀ cwd dir home id p) (hl : l ∈ (p.territory cwd fs₀).trees) :
    ∃ name, IsTreeName id name ∧ l = dir ++ [name] := by
  obtain ⟨a, ha, hl⟩ := Plan.mem_territory_trees.1 hl
  obtain ⟨name, hn, rfl⟩ := h.exists_treeName ha
  exact ⟨name, hn, location_of_join (hn.isName h.isId) h.entered hl⟩

theorem file_not_mem_trees (h : Housed fs₀ cwd dir home id p)
    (hl : l ∈ (p.territory cwd fs₀).files) : l ∉ (p.territory cwd fs₀).trees := by
  obtain ⟨name, hn, rfl⟩ := h.fileName_of_mem hl
  intro ht
  obtain ⟨name', hn', he⟩ := h.treeName_of_mem ht
  obtain ⟨-, hname⟩ := List.append_inj' he rfl
  obtain rfl : name = name' := by simpa using hname
  exact hn.not_isTreeName h.isId h.isId hn'

theorem exists_root (h : Housed fs₀ cwd dir home id p) (hl : (p.territory cwd fs₀).Holds l) :
    ∃ name, idIn name = id ∧ dir ++ [name] <+: l ∧ fs₀.get? (dir ++ [name]) = none := by
  rcases hl with hl | ⟨root, hr, hb⟩
  · obtain ⟨name, hn, rfl⟩ := h.fileName_of_mem hl
    obtain ⟨a, ha, hl⟩ := Plan.mem_territory_files.1 hl
    exact ⟨name, hn.idIn h.isId, List.prefix_rfl,
      get?_of_not_pathExists (h.fresh a (Plan.mem_artifacts.2 (.inl ha))) hl⟩
  · obtain ⟨name, hn, rfl⟩ := h.treeName_of_mem hr
    obtain ⟨a, ha, hl⟩ := Plan.mem_territory_trees.1 hr
    exact ⟨name, hn.idIn h.isId, hb,
      get?_of_not_pathExists (h.fresh a (Plan.mem_artifacts.2 (.inr ha))) hl⟩

theorem get?_eq_none (h : Housed fs₀ cwd dir home id p) (hl : (p.territory cwd fs₀).Holds l) :
    fs₀.get? l = none := by
  obtain ⟨name, -, hb, hn⟩ := h.exists_root hl
  exact h.tree.none_below hn hb

theorem keepsDirectories (h : Housed fs₀ cwd dir home id p) (hk : KeepsDirectories fs₀ fs)
    (hc : (p.territory cwd fs₀).ChangesOnly fs fs') : KeepsDirectories fs₀ fs' := by
  intro l hl
  have hnot : ¬ (p.territory cwd fs₀).Holds l := fun ht => by simp [h.get?_eq_none ht] at hl
  rw [hc.outside l hnot]
  exact hk l hl

theorem fits (h : Housed fs₀ cwd dir home id p) : (p.territory cwd fs₀).Fits fs₀ :=
  ⟨fun l hl => by simp [h.get?_eq_none (.inl hl)],
    fun l hl => by simp [h.get?_eq_none (.inr ⟨l, hl, List.prefix_rfl⟩)]⟩

/-- Executions with different ids have nothing in common: neither do their names agree, nor does
one work inside what another one made. -/
theorem disjoint {dir' : Location} {home' : Path} {id' : Text} {p' : Plan}
    (h : Housed fs₀ cwd dir home id p) (h' : Housed fs₀ cwd dir' home' id' p') (hid : id ≠ id')
    (hl : (p.territory cwd fs₀).Holds l) : ¬ (p'.territory cwd fs₀).Holds l := by
  intro hl'
  obtain ⟨name, hn, hb, hnone⟩ := h.exists_root hl
  obtain ⟨name', hn', hb', hnone'⟩ := h'.exists_root hl'
  have hdir := isDirectory_of_enter h.entered
  have hdir' := isDirectory_of_enter h'.entered
  -- Of two roots above one location, one is above the other. If they differ, then one home lies
  -- where nothing was at first.
  rcases List.prefix_or_prefix_of_prefix hb hb' with hp | hp
  · rcases List.prefix_concat_iff.1 hp with he | hp
    · obtain ⟨-, hname⟩ := List.append_inj' he rfl
      obtain rfl : name = name' := by simpa using hname
      exact hid (hn.symm.trans hn')
    · simp [h.tree.none_below hnone hp] at hdir'
  · rcases List.prefix_concat_iff.1 hp with he | hp
    · obtain ⟨-, hname⟩ := List.append_inj' he rfl
      obtain rfl : name' = name := by simpa using hname
      exact hid (hn.symm.trans hn')
    · simp [h.tree.none_below hnone' hp] at hdir

end Housed

end SoloCall
