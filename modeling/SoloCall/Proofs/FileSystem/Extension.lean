import SoloCall.Proofs.FileSystem.Resolve
import SoloCall.Proofs.FileSystem.Territory
import SoloCall.Proofs.Path.Parent

namespace SoloCall.FileSystem

variable {fs₀ fs fs' fs'' : FileSystem} {cwd here home l : Location} {names : List Text}
  {a p above : Path} {name : Text}

/-- What is there in the first file system is there in the second too, as it was. -/
def Extends (fs fs' : FileSystem) : Prop := ∀ l e, fs.get? l = some e → fs'.get? l = some e

theorem Extends.refl (fs : FileSystem) : fs.Extends fs := fun _ _ h => h

theorem Extends.trans (h : fs.Extends fs') (h' : fs'.Extends fs'') : fs.Extends fs'' :=
  fun l e he => h' l e (h l e he)

theorem Extends.keepsDirectories (h : fs.Extends fs') : KeepsDirectories fs fs' :=
  fun l hl => h l .directory hl

theorem extends_put {e : Entry} (h : fs.get? l = none) : fs.Extends (fs.put l e) := by
  intro m e' hm
  rw [get?_put (ne_nil_of_get?_none h), if_neg]
  · exact hm
  · rintro rfl
    simp [h] at hm

theorem pathExists_iff : fs.pathExists cwd p = true ↔
    ∃ l e, fs.locate cwd p = .ok l ∧ fs.get? l = some e := by
  rw [pathExists, stat]
  cases hl : fs.locate cwd p with
  | error e => simp [bind, Except.bind]
  | ok l =>
      cases he : fs.get? l with
      | none => simp [he, bind, Except.bind]
      | some e => simp [he, bind, Except.bind]

theorem pathExists_mono (h : fs.Extends fs') (hp : fs.pathExists cwd p = true) :
    fs'.pathExists cwd p = true := by
  obtain ⟨l, e, hl, he⟩ := pathExists_iff.1 hp
  exact pathExists_iff.2 ⟨l, e, locate_mono h.keepsDirectories hl, h l e he⟩

theorem IsTree.dropLast (h : fs.IsTree) (hl : fs.get? l = some .directory) :
    fs.get? l.dropLast = some .directory := by
  rcases List.eq_nil_or_concat l with rfl | ⟨init, name, rfl⟩
  · exact get?_root fs
  · rw [List.concat_eq_append] at hl ⊢
    rw [List.dropLast_concat]
    exact h init name .directory hl

theorem walk_real (fs : FileSystem) (here : Location) (names : List Text) (name : Text)
    (rest : List Text) :
    fs.walk here (names ++ name :: rest) = fs.walk here (Path.real names ++ name :: rest) := by
  induction names generalizing here with
  | nil => rfl
  | cons piece names ih =>
      cases ht : Path.isTrivial piece with
      | true =>
          have hreal : Path.real (piece :: names) = Path.real names := by simp [Path.real, ht]
          rw [hreal, ← ih]
          cases names with
          | nil => exact walk_trivial_cons ht fs here name rest
          | cons next names => exact walk_trivial_cons ht fs here next (names ++ name :: rest)
      | false =>
          have hreal : Path.real (piece :: names) = piece :: Path.real names := by
            simp [Path.real, ht]
          rw [hreal, List.cons_append, List.cons_append]
          by_cases hd : fs.get? here = some .directory
          · simp only [walk_of_directory hd, ih]
          · obtain ⟨e, he⟩ := walk_of_ne_directory hd
            rw [he, he]

theorem walk_real_of_ok (h : fs.walk here names = .ok l) :
    fs.walk here (Path.real names) = .ok l := by
  induction names generalizing here with
  | nil => exact h
  | cons piece names ih =>
      have hdir := isDirectory_of_walk_cons h
      cases ht : Path.isTrivial piece with
      | true =>
          have hreal : Path.real (piece :: names) = Path.real names := by simp [Path.real, ht]
          rw [hreal]
          rw [walk_of_directory hdir, if_pos ht] at h
          exact ih h
      | false =>
          have hreal : Path.real (piece :: names) = piece :: Path.real names := by
            simp [Path.real, ht]
          rw [hreal]
          simp only [walk_of_directory hdir, ht, Bool.false_eq_true, if_false] at h ⊢
          split_ifs at h ⊢ with hdots
          · exact ih h
          · exact ih h

theorem walk_trivial_of_directory (ht : ∀ piece ∈ names, Path.isTrivial piece = true)
    (hd : fs.get? here = some .directory) : fs.walk here names = .ok here := by
  induction names with
  | nil => rfl
  | cons piece names ih =>
      rw [walk_of_directory hd, if_pos (ht piece List.mem_cons_self)]
      exact ih fun n hn => ht n (List.mem_cons_of_mem _ hn)

def directoryOf (above : Path) : Path := if above.isEmpty then ['.'] else above

theorem walk_of_cutAtName {front final : List Text} (hc : Path.CutAtName p above front name final)
    (ha : fs.locate cwd (directoryOf above) = .ok home) :
    fs.walk (if Path.isAbsolute p then [] else cwd) (Text.split '/' p) =
      fs.walk home (name :: final) := by
  have hwalk := walk_real_of_ok (locate_eq_ok.1 ha).2
  have hstart : Path.isAbsolute (directoryOf above) = Path.isAbsolute p := by
    rw [← hc.isAbsolute_above, directoryOf]
    cases above <;> rfl
  have hsteps : Path.real (Text.split '/' (directoryOf above)) = Path.real front := by
    rw [← hc.steps_above, ← Path.steps_eq_real, directoryOf]
    cases above <;> rfl
  rw [hstart, hsteps] at hwalk
  rw [hc.split_eq, walk_real, walk_append, hwalk]
  rfl

/-- A place that a path names as long as it is a directory, in whatever the file system grows
into, and that is the only one it ever names. -/
structure Slot (fs₀ : FileSystem) (cwd : Location) (a : Path) (l : Location) : Prop where
  missing : fs₀.get? l = none
  leads : ∀ fs, fs₀.Extends fs → fs.get? l = some .directory → fs.locate cwd a = .ok l
  unique : ∀ fs m, fs₀.Extends fs → fs.locate cwd a = .ok m → m = l

theorem get?_start_of_trivial (hc : checkPath a = .ok ())
    (htrivial : ∀ piece ∈ Text.split '/' a, Path.isTrivial piece = true)
    (hpieces : Path.pieces a = [])
    (hparent : ∀ above, Path.parent? a = some above →
      fs₀.pathExists cwd (directoryOf above) = true) :
    fs₀.get? (if Path.isAbsolute a then [] else cwd) = some .directory := by
  cases ha : Path.isAbsolute a with
  | true => exact get?_root fs₀
  | false =>
      have hdot : a.head? = some '.' := by
        cases a with
        | nil => cases hc
        | cons c r =>
            have hslash : c ≠ '/' := by
              rintro rfl
              cases ha
            cases hs : Text.split '/' r with
            | nil => exact absurd hs (Text.split_ne_nil '/' r)
            | cons piece rest =>
                have hfirst : Path.isTrivial (c :: piece) = true := by
                  apply htrivial
                  rw [Text.split_cons_of_ne hslash, hs]
                  exact List.mem_cons_self
                have hc : c = '.' ∧ piece = [] := by simpa [Path.isTrivial] using hfirst
                rw [hc.1]
                rfl
      have hnone : Path.parent? a = some [] := by simp [Path.parent?, hpieces, hdot]
      obtain ⟨l, e, hl, he⟩ := pathExists_iff.1 (hparent [] hnone)
      have hwalk := (locate_eq_ok.1 hl).2
      have hdir : fs₀.get? cwd = some .directory := isDirectory_of_walk_cons hwalk
      exact hdir

theorem get?_eq_none_of_fresh (fresh : fs.pathExists cwd a = false)
    (hl : fs.locate cwd a = .ok l) : fs.get? l = none := by
  cases he : fs.get? l with
  | none => rfl
  | some e =>
      have hexists := pathExists_iff.2 ⟨l, e, hl, he⟩
      rw [fresh] at hexists
      cases hexists

theorem walk_name_cons (hd : fs.get? home = some .directory) (ht : Path.isTrivial name = false)
    (hdots : name ≠ ['.', '.']) (hshort : ¬(Utf8.encode name).length > maxName) :
    fs.walk home (name :: names) = fs.walk (home ++ [name]) names := by
  simp [walk_of_directory hd, ht, hdots, hshort]

/-- If pieces without a name lead on from somewhere in the grown file system and led to nothing in
the old one, nothing was there. -/
theorem get?_eq_none_of_walk_trivial (ht : ∀ piece ∈ names, Path.isTrivial piece = true)
    (hext : fs₀.Extends fs) (hwalk : fs.walk here names = .ok l)
    (hnone : ∀ m, fs₀.walk here names = .ok m → fs₀.get? m = none) : fs₀.get? here = none := by
  cases hold : fs₀.get? here with
  | none => rfl
  | some e =>
      rw [← hold]
      apply hnone
      cases names with
      | nil => rfl
      | cons piece names =>
          have hnow := isDirectory_of_walk_cons hwalk
          rw [hext here e hold] at hnow
          rw [Option.some.inj hnow] at hold
          exact walk_trivial_of_directory ht hold

theorem Slot.of_cutAtName {front final : List Text} (hcut : Path.CutAtName a above front name final)
    (hhome : fs₀.locate cwd (directoryOf above) = .ok home)
    (hdir : fs₀.get? home = some .directory) (hdots : name ≠ ['.', '.'])
    (fresh : fs₀.pathExists cwd a = false) (hext : fs₀.Extends fs)
    (hl : fs.locate cwd a = .ok l) : fs₀.Slot cwd a l := by
  have hcheck := (locate_eq_ok.1 hl).1
  have hshort : ¬(Utf8.encode name).length > maxName := by
    intro hlong
    have hwalk := (locate_eq_ok.1 hl).2
    rw [walk_of_cutAtName hcut (locate_mono hext.keepsDirectories hhome)] at hwalk
    simp [walk_of_directory (hext home _ hdir), hcut.name_real, hdots, hlong] at hwalk
  have hlocate : ∀ fs' m, fs₀.Extends fs' →
      (fs'.locate cwd a = .ok m ↔ fs'.walk (home ++ [name]) final = .ok m) := by
    intro fs' m h
    rw [locate_eq_ok, walk_of_cutAtName hcut (locate_mono h.keepsDirectories hhome),
      walk_name_cons (h home _ hdir) hcut.name_real hdots hshort]
    exact ⟨And.right, fun hm => ⟨hcheck, hm⟩⟩
  have hwalk := (hlocate fs l hext).1 hl
  obtain rfl := walk_trivial hcut.final_trivial hwalk
  refine ⟨?_, ?_, ?_⟩
  · apply get?_eq_none_of_walk_trivial hcut.final_trivial hext hwalk
    intro m hm
    exact get?_eq_none_of_fresh fresh ((hlocate fs₀ m (.refl fs₀)).2 hm)
  · intro fs' h hd
    exact (hlocate fs' _ h).2 (walk_trivial_of_directory hcut.final_trivial hd)
  · intro fs' m h hm
    exact walk_trivial hcut.final_trivial ((hlocate fs' m h).1 hm)

theorem Slot.of_locate (tree : fs₀.IsTree) (fresh : fs₀.pathExists cwd a = false)
    (hparent : ∀ above, Path.parent? a = some above →
      fs₀.pathExists cwd (directoryOf above) = true)
    (hext : fs₀.Extends fs) (hl : fs.locate cwd a = .ok l) : fs₀.Slot cwd a l := by
  obtain ⟨hcheck, hwalk⟩ := locate_eq_ok.1 hl
  have hnone : ∀ m, fs₀.walk (if Path.isAbsolute a then [] else cwd) (Text.split '/' a) = .ok m →
      fs₀.get? m = none := fun m hm =>
    get?_eq_none_of_fresh fresh (locate_eq_ok.2 ⟨hcheck, hm⟩)
  by_cases hpieces : Path.pieces a = []
  · have htrivial := Path.trivial_of_pieces_eq_nil hpieces
    have hstart := get?_start_of_trivial hcheck htrivial hpieces hparent
    have hmissing := hnone _ (walk_trivial_of_directory htrivial hstart)
    rw [hstart] at hmissing
    cases hmissing
  · obtain ⟨above, front, name, final, habove, hcut⟩ := Path.exists_cutAtName hpieces
    obtain ⟨home, e, hhome, he⟩ := pathExists_iff.1 (hparent above habove)
    have hdir : fs₀.get? home = some .directory := by
      rw [walk_of_cutAtName hcut (locate_mono hext.keepsDirectories hhome)] at hwalk
      have hnow := isDirectory_of_walk_cons hwalk
      rw [hext home e he] at hnow
      rw [he, hnow]
    have hdots : name ≠ ['.', '.'] := by
      rintro rfl
      rw [walk_of_cutAtName hcut hhome] at hnone
      have hup : fs₀.walk home (['.', '.'] :: final) = .ok home.dropLast := by
        rw [walk_of_directory hdir]
        exact walk_trivial_of_directory hcut.final_trivial (tree.dropLast hdir)
      have hmissing := hnone _ hup
      rw [tree.dropLast hdir] at hmissing
      cases hmissing
    exact .of_cutAtName hcut hhome hdir hdots fresh hext hl

end SoloCall.FileSystem
