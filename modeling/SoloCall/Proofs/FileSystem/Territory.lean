import SoloCall.FileSystem.Operation

namespace SoloCall

namespace FileSystem

variable {fs fs' : FileSystem} {k l : Location} {name : Text} {e : Entry}

/-- Whatever exists lies in a directory. -/
def IsTree (fs : FileSystem) : Prop :=
  ∀ l name e, fs.get? (l ++ [name]) = some e → fs.get? l = some .directory

theorem isTree_of_entries (h : ∀ x ∈ fs.entries, fs.get? x.1.dropLast = some .directory) :
    fs.IsTree := by
  intro l name e he
  have hne : l ++ [name] ≠ [] := by simp
  simp only [get?, if_neg hne] at he
  obtain ⟨front, back, hf, -⟩ := List.lookup_eq_some_iff.1 he
  have hmem : (l ++ [name], e) ∈ fs.entries := by simp [hf]
  simpa using h _ hmem

theorem IsTree.directory_of_below (h : fs.IsTree) {names : List Text} (hn : names ≠ [])
    (hl : fs.get? (k ++ names) = some e) : fs.get? k = some .directory := by
  induction names generalizing k with
  | nil => exact absurd rfl hn
  | cons name rest ih =>
      cases rest with
      | nil => exact h k name e hl
      | cons next rest =>
          have hdir : fs.get? (k ++ [name]) = some .directory :=
            ih (by simp) (by simpa using hl)
          exact h k name .directory hdir

theorem IsTree.none_below (h : fs.IsTree) (hk : fs.get? k = none) (hb : k <+: l) :
    fs.get? l = none := by
  obtain ⟨names, rfl⟩ := hb
  cases hl : fs.get? (k ++ names) with
  | none => rfl
  | some e =>
      cases names with
      | nil => simp [hk] at hl
      | cons name rest =>
          have hdir := h.directory_of_below (by simp) hl
          simp [hk] at hdir

theorem get?_root (fs : FileSystem) : fs.get? [] = some .directory := by simp [get?]

theorem ne_nil_of_get?_none (h : fs.get? l = none) : l ≠ [] := by
  rintro rfl
  simp [get?_root] at h

theorem IsTree.put (h : fs.IsTree) (hp : fs.get? l = some .directory)
    (hk : e = .directory ∨ fs.get? (l ++ [name]) ≠ some .directory) :
    (fs.put (l ++ [name]) e).IsTree := by
  intro m n e' he
  have hne : l ++ [name] ≠ [] := by simp
  rw [get?_put hne] at he ⊢
  by_cases hm : m = l ++ [name]
  · subst hm
    rcases hk with rfl | hk
    · exact if_pos rfl
    · rw [if_neg (by simp)] at he
      exact absurd (h _ n e' he) hk
  · rw [if_neg hm]
    split at he
    · rename_i heq
      obtain ⟨rfl, -⟩ := List.append_inj' heq rfl
      exact hp
    · exact h m n e' he

theorem IsTree.erase (h : fs.IsTree) (hl : l ≠ []) (hk : fs.get? l ≠ some .directory) :
    (fs.erase l).IsTree := by
  intro m n e he
  rw [get?_erase hl] at he ⊢
  split at he
  · simp at he
  · have hm := h m n e he
    rwa [if_neg (by rintro rfl; exact hk hm)]

theorem IsTree.without (h : fs.IsTree)
    (hw : ∀ m, fs'.get? m = if l <+: m then none else fs.get? m) : fs'.IsTree := by
  intro m n e he
  rw [hw] at he ⊢
  split at he
  · simp at he
  · rename_i hnot
    rw [if_neg fun hm => hnot (hm.trans (List.prefix_append m [n]))]
    exact h m n e he

end FileSystem

/-- Files by their locations, and directories that stand for everything below them too. -/
structure Territory where
  files : List Location
  trees : List Location

namespace Territory

variable {t : Territory} {fs fs' fs'' : FileSystem} {l : Location}

def Holds (t : Territory) (l : Location) : Prop := l ∈ t.files ∨ ∃ root ∈ t.trees, root <+: l

/-- The second file system differs from the first in this territory alone. -/
structure ChangesOnly (t : Territory) (fs fs' : FileSystem) : Prop where
  outside : ∀ l, ¬ t.Holds l → fs'.get? l = fs.get? l
  tree : fs.IsTree → fs'.IsTree

/-- No file of the territory became a directory, and no directory of it a file. -/
structure KeepsKinds (t : Territory) (fs fs' : FileSystem) : Prop where
  files : ∀ l ∈ t.files, fs'.get? l = some .directory → fs.get? l = some .directory
  trees : ∀ l ∈ t.trees, ∀ contents executable, fs'.get? l = some (.file contents executable) →
    ∃ contents executable, fs.get? l = some (.file contents executable)

theorem ChangesOnly.refl (t : Territory) (fs : FileSystem) : t.ChangesOnly fs fs :=
  ⟨fun _ _ => rfl, id⟩

theorem ChangesOnly.trans (h : t.ChangesOnly fs fs') (h' : t.ChangesOnly fs' fs'') :
    t.ChangesOnly fs fs'' :=
  ⟨fun l hl => (h'.outside l hl).trans (h.outside l hl), fun ht => h'.tree (h.tree ht)⟩

structure Fits (t : Territory) (fs : FileSystem) : Prop where
  files : ∀ l ∈ t.files, fs.get? l ≠ some .directory
  trees : ∀ l ∈ t.trees, ∀ contents executable, fs.get? l ≠ some (.file contents executable)

theorem Fits.of_keepsKinds (h : t.Fits fs) (hk : t.KeepsKinds fs fs') : t.Fits fs' :=
  ⟨fun l hl hd => h.files l hl (hk.files l hl hd), fun l hl c x hf =>
    let ⟨c', x', hf'⟩ := hk.trees l hl c x hf
    h.trees l hl c' x' hf'⟩

theorem Fits.congr (h : t.Fits fs) (he : ∀ l, t.Holds l → fs'.get? l = fs.get? l) : t.Fits fs' :=
  ⟨fun l hl => he l (.inl hl) ▸ h.files l hl,
    fun l hl => he l (.inr ⟨l, hl, List.prefix_rfl⟩) ▸ h.trees l hl⟩

theorem KeepsKinds.of_none_or_eq (h : ∀ l, fs'.get? l = none ∨ fs'.get? l = fs.get? l) :
    t.KeepsKinds fs fs' := by
  constructor
  · intro l hl hd
    rcases h l with hn | he
    · simp [hn] at hd
    · exact he ▸ hd
  · intro l hl c x hf
    rcases h l with hn | he
    · simp [hn] at hf
    · exact ⟨c, x, he ▸ hf⟩

theorem KeepsKinds.refl (t : Territory) (fs : FileSystem) : t.KeepsKinds fs fs :=
  ⟨fun _ _ h => h, fun _ _ c x h => ⟨c, x, h⟩⟩

theorem KeepsKinds.trans (h : t.KeepsKinds fs fs') (h' : t.KeepsKinds fs' fs'') :
    t.KeepsKinds fs fs'' := by
  refine ⟨fun l hl hd => h.files l hl (h'.files l hl hd), fun l hl c x hf => ?_⟩
  obtain ⟨c', x', hf'⟩ := h'.trees l hl c x hf
  exact h.trees l hl c' x' hf'

/-- What an owner of the territory may do: to change it alone, and no kinds. -/
structure Allows (t : Territory) (fs fs' : FileSystem) : Prop where
  changesOnly : t.ChangesOnly fs fs'
  keepsKinds : t.KeepsKinds fs fs'

theorem Allows.refl (t : Territory) (fs : FileSystem) : t.Allows fs fs := ⟨.refl t fs, .refl t fs⟩

theorem Allows.trans (h : t.Allows fs fs') (h' : t.Allows fs' fs'') : t.Allows fs fs'' :=
  ⟨h.changesOnly.trans h'.changesOnly, h.keepsKinds.trans h'.keepsKinds⟩

end Territory

end SoloCall
