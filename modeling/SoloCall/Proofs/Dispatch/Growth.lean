import SoloCall.Proofs.Dispatch.Housing
import SoloCall.Proofs.FileSystem.Slot

namespace SoloCall

open FileSystem

variable {fs₀ fs fs' made : FileSystem} {cwd l : Location} {a : Path} {rest dirs files : List Path}

/-- The file system has grown by directories alone, and each is at a slot of one of the paths,
which calls it by its name. -/
structure Grown (fs₀ : FileSystem) (cwd : Location) (dirs : List Path) (fs : FileSystem) :
    Prop where
  extends_old : fs₀.Extends fs
  new : ∀ l e, fs.get? l = some e → fs₀.get? l = some e ∨
    e = .directory ∧ ∃ a ∈ dirs, fs₀.Slot cwd a l ∧ IsNamed a

/-- The file system has grown by files alone, and one of the paths leads to each. -/
structure Filled (made : FileSystem) (cwd : Location) (files : List Path) (fs : FileSystem) :
    Prop where
  extends_made : made.Extends fs
  new : ∀ l e, fs.get? l = some e → made.get? l = some e ∨
    made.get? l = none ∧ e ≠ .directory ∧ ∃ a ∈ files, made.locate cwd a = .ok l

namespace Grown

theorem refl (fs : FileSystem) (cwd : Location) (dirs : List Path) : Grown fs cwd dirs fs :=
  ⟨.refl fs, fun _ _ h => .inl h⟩

theorem congr (h : Grown fs₀ cwd dirs fs) (he : ∀ l, fs'.get? l = fs.get? l) :
    Grown fs₀ cwd dirs fs' :=
  ⟨fun l e hl => (he l).trans (h.extends_old l e hl), fun l e hl => h.new l e (he l ▸ hl)⟩

theorem get?_eq_of_nil (h : Grown fs₀ cwd [] fs) (l : Location) : fs.get? l = fs₀.get? l := by
  cases hl : fs.get? l with
  | some e =>
      rcases h.new l e hl with hold | ⟨-, a, ha, -⟩
      · exact hold.symm
      · cases ha
  | none =>
      cases hold : fs₀.get? l with
      | none => rfl
      | some e =>
          rw [h.extends_old l e hold] at hl
          cases hl

theorem makeDirectories (h : Grown fs₀ cwd dirs fs) (tree : fs.IsTree) (ha : a ∈ dirs)
    (hparent : ∀ above, Path.parent? a = some above →
      fs₀.pathExists cwd (directoryOf above) = true)
    (hslot : ∀ fs l, fs₀.Extends fs → fs.locate cwd a = .ok l → fs₀.Slot cwd a l)
    (fault? : Option Fault) :
    Grown fs₀ cwd dirs ((FileStep.makeDirectories a).act cwd fs fault?).2 ∧
      ((FileStep.makeDirectories a).act cwd fs fault?).2.IsTree ∧
      fs.Extends ((FileStep.makeDirectories a).act cwd fs fault?).2 := by
  cases fault? with
  | some fault => exact ⟨h, tree, .refl fs⟩
  | none => ?_
  simp only [FileStep.act]
  have hexists : ∀ above, Path.parent? a = some above →
      fs.pathExists cwd (directoryOf above) = true :=
    fun above habove => pathExists_mono h.extends_old (hparent above habove)
  rcases makeDirectories_eq hexists with hkeep | hmake
  · rw [hkeep]
    exact ⟨h, tree, .refl fs⟩
  · obtain ⟨l, hnone, hput, htree, hlead, hnamed⟩ := made_of_makeDirectory tree hmake
    rw [hput] at htree hlead ⊢
    have hext : fs.Extends (fs.put l .directory) := extends_put hnone
    have hmine := hslot _ l (h.extends_old.trans hext) hlead
    refine ⟨⟨h.extends_old.trans hext, ?_⟩, htree, hext⟩
    intro m e hm
    rw [get?_put (ne_nil_of_get?_none hnone)] at hm
    split at hm
    · rename_i heq
      subst heq
      exact .inr ⟨(Option.some.inj hm).symm, a, ha, hmine, hnamed⟩
    · exact h.new m e hm

theorem removeTree (h : Grown fs₀ cwd (a :: rest) fs) (tree : fs₀.IsTree)
    (hslot : ∀ fs l, fs₀.Extends fs → fs.locate cwd a = .ok l → fs₀.Slot cwd a l) :
    Grown fs₀ cwd rest (fs.removeTree cwd a).2 ∧ (fs.removeTree cwd a).2.Extends fs := by
  obtain ⟨hold, hsub, hgone⟩ :=
    removeTree_effect tree h.extends_old fun l hl => hslot fs l h.extends_old hl
  refine ⟨⟨hold, ?_⟩, hsub⟩
  intro l e hl
  rcases h.new l e (hsub l e hl) with hwas | ⟨rfl, b, hb, hmine, hnamed⟩
  · exact .inl hwas
  · rcases List.mem_cons.1 hb with rfl | hb
    · rw [hgone l hmine hnamed (hsub l _ hl)] at hl
      cases hl
    · exact .inr ⟨rfl, b, hb, hmine, hnamed⟩

end Grown

namespace Filled

theorem refl (fs : FileSystem) (cwd : Location) (files : List Path) : Filled fs cwd files fs :=
  ⟨.refl fs, fun _ _ h => .inl h⟩

theorem get?_eq_of_nil (h : Filled made cwd [] fs) (l : Location) : fs.get? l = made.get? l := by
  cases hl : fs.get? l with
  | some e =>
      rcases h.new l e hl with hold | ⟨-, -, a, ha, -⟩
      · exact hold.symm
      · cases ha
  | none =>
      cases hold : made.get? l with
      | none => rfl
      | some e =>
          rw [h.extends_made l e hold] at hl
          cases hl

theorem locate_iff (h : Filled made cwd files fs) :
    fs.locate cwd a = .ok l ↔ made.locate cwd a = .ok l := by
  constructor
  · apply locate_mono
    intro m hm
    rcases h.new m _ hm with hold | ⟨-, he, -⟩
    · exact hold
    · exact absurd rfl he
  · exact locate_mono h.extends_made.keepsDirectories

theorem get?_made (h : Filled made cwd files fs) (hoff : made.LeadsToNoFile cwd a)
    (hl : made.locate cwd a = .ok l) (hd : fs.get? l ≠ some .directory) : made.get? l = none := by
  cases hold : made.get? l with
  | none => rfl
  | some e =>
      cases e with
      | directory => exact absurd (h.extends_made l _ hold) hd
      | file contents executable => exact absurd hold (hoff l contents executable hl)

theorem write (h : Filled made cwd files fs) (ha : a ∈ files)
    (hoff : made.LeadsToNoFile cwd a) {contents : Bytes} (hw : fs.write cwd a contents = .ok fs') :
    Filled made cwd files fs' := by
  obtain ⟨l, executable, hl, hd, rfl⟩ := write_ok hw
  rw [h.locate_iff] at hl
  have hnone := h.get?_made hoff hl hd
  have hne := ne_nil_of_get?_none hnone
  constructor
  · intro m e hm
    rw [get?_put hne, if_neg]
    · exact h.extends_made m e hm
    · rintro rfl
      rw [hnone] at hm
      cases hm
  · intro m e hm
    rw [get?_put hne] at hm
    split at hm
    · rename_i heq
      subst heq
      refine .inr ⟨hnone, ?_, a, ha, hl⟩
      rw [← Option.some.inj hm]
      simp
    · exact h.new m e hm

theorem writeThrough (h : Filled made cwd files fs) (ha : a ∈ files)
    (hoff : made.LeadsToNoFile cwd a) (contents : Bytes) (fault? : Option Fault) :
    Filled made cwd files (fs.writeThrough cwd a contents fault?).2 := by
  rcases writeThrough_cases fs cwd a contents fault? with hkeep | ⟨written, hw⟩
  · rwa [hkeep]
  · exact h.write ha hoff hw

theorem removeFile (h : Filled made cwd (a :: rest) fs) (hoff : made.LeadsToNoFile cwd a) :
    Filled made cwd rest (fs.orKeep (fs.removeFile cwd a)).2 := by
  rcases removeFile_cases fs cwd a with ⟨l, contents, executable, hl, he, hok⟩ | ⟨hnot, e, herror⟩
  · rw [hok]
    have hlead := h.locate_iff.1 hl
    have hnone := h.get?_made hoff hlead (by simp [he])
    have hne := ne_nil_of_get?_none hnone
    constructor
    · intro m e hm
      rw [orKeep, get?_erase hne, if_neg]
      · exact h.extends_made m e hm
      · rintro rfl
        rw [hnone] at hm
        cases hm
    · intro m e hm
      rw [orKeep, get?_erase hne] at hm
      split at hm
      · cases hm
      · rename_i hother
        rcases h.new m e hm with hold | ⟨hmissing, hfile, b, hb, hleads⟩
        · exact .inl hold
        · rcases List.mem_cons.1 hb with rfl | hb
          · rw [hlead] at hleads
            exact absurd (Except.ok.inj hleads).symm hother
          · exact .inr ⟨hmissing, hfile, b, hb, hleads⟩
  · rw [herror]
    refine ⟨h.extends_made, fun m e hm => ?_⟩
    rcases h.new m e hm with hold | ⟨hmissing, hfile, b, hb, hleads⟩
    · exact .inl hold
    · rcases List.mem_cons.1 hb with rfl | hb
      · cases e with
        | directory => exact absurd rfl hfile
        | file contents executable =>
            exact absurd hm (hnot m contents executable (h.locate_iff.2 hleads))
      · exact .inr ⟨hmissing, hfile, b, hb, hleads⟩

end Filled

end SoloCall
