import SoloCall.Proofs.FileSystem.Effect
import SoloCall.Proofs.FileSystem.Extension
import SoloCall.Proofs.Text.Words

namespace SoloCall

theorem Text.split_getLast? (sep : Char) (t : Text) :
    ∃ front, split sep t = front ++ [endWhile (· ≠ sep) t] := by
  have ht := dropEndWhile_append_endWhile (· ≠ sep) t
  have hname : sep ∉ endWhile (· ≠ sep) t := by
    intro hm
    simpa using mem_endWhile_imp hm
  rcases List.eq_nil_or_concat (dropEndWhile (· ≠ sep) t) with hd | ⟨init, c, hd⟩
  · rw [hd, List.nil_append] at ht
    refine ⟨[], ?_⟩
    rw [ht] at hname ⊢
    exact split_of_not_mem hname
  · have hc : c = sep := by
      have hlast : (dropEndWhile (· ≠ sep) t).getLast? = some c := by
        rw [hd, List.concat_eq_append, List.getLast?_concat]
      simpa using getLast?_dropEndWhile hlast
    subst hc
    refine ⟨split c init, ?_⟩
    conv_lhs => rw [← ht, hd, List.concat_eq_append, List.append_assoc, List.singleton_append]
    rw [split_append_cons, split_of_not_mem hname]

theorem Text.split_append_seps {sep : Char} {seps : Text} (h : ∀ c ∈ seps, c = sep) (t : Text) :
    split sep (t ++ seps) = split sep t ++ seps.map fun _ => [] := by
  induction seps generalizing t with
  | nil => simp
  | cons c seps ih =>
      obtain rfl := h c List.mem_cons_self
      have hs := ih (fun d hd => h d (List.mem_cons_of_mem _ hd)) (t ++ [c])
      have ht : split c (t ++ [c]) = split c t ++ [[]] := split_append_cons c t []
      rw [List.append_assoc, List.singleton_append, ht] at hs
      rw [hs, List.map_cons, List.append_assoc, List.singleton_append]

namespace FileSystem

variable {fs₀ fs fs' : FileSystem} {cwd l : Location} {a p above : Path}

/-- A path that leads to nothing leads to a name in a directory. -/
theorem exists_home (tree : fs.IsTree) (h : fs.locate cwd p = .ok l) (hl : fs.get? l = none) :
    ∃ home, l = home ++ [Text.endWhile (· ≠ '/') p] ∧ fs.get? home = some .directory ∧
      Text.endWhile (· ≠ '/') p ≠ ['.'] ∧ Text.endWhile (· ≠ '/') p ≠ ['.', '.'] := by
  obtain ⟨front, hfront⟩ := Text.split_getLast? '/' p
  have hwalk := (locate_eq_ok.1 h).2
  rw [hfront] at hwalk
  obtain ⟨home, -, hlast⟩ := exists_walk_append hwalk
  have hdir := isDirectory_of_walk_cons hlast
  have htrivial : Path.isTrivial (Text.endWhile (· ≠ '/') p) = false := by
    by_contra ht
    rw [Bool.not_eq_false] at ht
    obtain rfl := walk_trivial (by simpa using ht) hlast
    rw [hdir] at hl
    cases hl
  have hdots : Text.endWhile (· ≠ '/') p ≠ ['.', '.'] := by
    intro hd
    rw [hd] at hlast
    have hup : home.dropLast = l := by
      simpa [walk_of_directory hdir, Path.isTrivial] using hlast
    rw [← hup, tree.dropLast hdir] at hl
    cases hl
  refine ⟨home, ?_, hdir, ?_, hdots⟩
  · rw [walk_of_directory hdir, htrivial] at hlast
    simp only [hdots, Bool.false_eq_true, if_false] at hlast
    split_ifs at hlast
    exact (Except.ok.inj hlast).symm
  · intro hd
    rw [hd] at htrivial
    cases htrivial

def bare (p : Path) : Path :=
  if (Text.dropEndWhile (· = '/') p).isEmpty then p else Text.dropEndWhile (· = '/') p

theorem exists_slashes (p : Path) : ∃ slashes, p = bare p ++ slashes ∧ ∀ c ∈ slashes, c = '/' := by
  rw [bare]
  split
  · exact ⟨[], by simp, by simp⟩
  · refine ⟨Text.endWhile (· = '/') p, (Text.dropEndWhile_append_endWhile _ p).symm, ?_⟩
    intro c hc
    simpa using Text.mem_endWhile_imp hc

theorem makeDirectory_eq_bare : fs.makeDirectory cwd p = checkPath p >>= fun _ =>
    fs.locate cwd (bare p) >>= fun l =>
      if (fs.get? l).isSome then .error .alreadyExists else .ok (fs.put l .directory) := rfl

theorem makeDirectory_ok (h : fs.makeDirectory cwd p = .ok fs') :
    ∃ l, checkPath p = .ok () ∧ fs.locate cwd (bare p) = .ok l ∧ fs.get? l = none ∧
      fs' = fs.put l .directory := by
  rw [makeDirectory_eq_bare] at h
  cases hc : checkPath p with
  | error e => simp [hc, bind, Except.bind] at h
  | ok u =>
      cases hl : fs.locate cwd (bare p) with
      | error e => simp [hc, hl, bind, Except.bind] at h
      | ok l =>
          cases he : fs.get? l with
          | some e => simp [hc, hl, he, bind, Except.bind] at h
          | none =>
              refine ⟨l, rfl, rfl, he, ?_⟩
              simpa [hc, hl, he, bind, Except.bind, eq_comm] using h

theorem checkPath_front {front back : Path} (hne : front ≠ [])
    (h : checkPath (front ++ back) = .ok ()) : checkPath front = .ok () := by
  have hlength : (Utf8.encode (front ++ back)).length =
      (Utf8.encode front).length + (Utf8.encode back).length := by
    simp [Utf8.encode]
  rw [checkPath] at h
  split_ifs at h with hnul hempty hlong
  rw [checkPath, if_neg, if_neg, if_neg]
  · omega
  · simpa using hne
  · intro hc
    apply hnul
    simp only [List.contains_eq_mem, List.mem_append, decide_eq_true_eq] at hc ⊢
    exact .inl hc

theorem bare_ne_nil (h : p ≠ []) : bare p ≠ [] := by
  rw [bare]
  split
  · exact h
  · rename_i hne
    simpa using hne

theorem isAbsolute_bare (h : p ≠ []) : Path.isAbsolute (bare p) = Path.isAbsolute p := by
  obtain ⟨slashes, hslashes, -⟩ := exists_slashes p
  cases hb : bare p with
  | nil => exact absurd hb (bare_ne_nil h)
  | cons c r =>
      rw [hb] at hslashes
      rw [hslashes]
      rfl

theorem split_bare (p : Path) : ∃ final, Text.split '/' p = Text.split '/' (bare p) ++ final ∧
    ∀ piece ∈ final, Path.isTrivial piece = true := by
  obtain ⟨slashes, hslashes, hall⟩ := exists_slashes p
  refine ⟨slashes.map fun _ => [], ?_, by simp [Path.isTrivial]⟩
  conv_lhs => rw [hslashes]
  exact Text.split_append_seps hall (bare p)

theorem ne_nil_of_checkPath (h : checkPath p = .ok ()) : p ≠ [] := by
  rintro rfl
  cases h

theorem locate_bare (h : fs.locate cwd p = .ok l) : fs.locate cwd (bare p) = .ok l := by
  rw [locate_eq_ok] at h ⊢
  have hne := ne_nil_of_checkPath h.1
  obtain ⟨slashes, hslashes, -⟩ := exists_slashes p
  obtain ⟨final, hsplit, htrivial⟩ := split_bare p
  refine ⟨checkPath_front (bare_ne_nil hne) (hslashes ▸ h.1), ?_⟩
  have hwalk := h.2
  rw [hsplit] at hwalk
  obtain ⟨middle, hfront, hback⟩ := exists_walk_append hwalk
  obtain rfl := walk_trivial htrivial hback
  rwa [isAbsolute_bare hne]

theorem locate_of_bare (hc : checkPath p = .ok ()) (h : fs.locate cwd (bare p) = .ok l)
    (hl : fs.get? l = some .directory) : fs.locate cwd p = .ok l := by
  have hne := ne_nil_of_checkPath hc
  obtain ⟨final, hsplit, htrivial⟩ := split_bare p
  have hwalk := (locate_eq_ok.1 h).2
  rw [isAbsolute_bare hne] at hwalk
  rw [locate_eq_ok, hsplit, walk_append, hwalk]
  exact ⟨hc, walk_trivial_of_directory htrivial hl⟩

theorem makeDirectory_of_pathExists (h : fs.pathExists cwd p = true) :
    fs.makeDirectory cwd p = .error .alreadyExists := by
  obtain ⟨l, e, hl, he⟩ := pathExists_iff.1 h
  rw [makeDirectory_eq_bare, (locate_eq_ok.1 hl).1, locate_bare hl]
  simp [he, bind, Except.bind]

theorem makeDirectoriesUpTo_of_pathExists (levels : Nat)
    (h : fs.pathExists cwd (directoryOf above) = true) :
    (makeDirectoriesUpTo cwd levels above fs).2 = fs := by
  unfold makeDirectoriesUpTo
  by_cases he : above = []
  · simp [he]
  · have hd : directoryOf above = above := by simp [directoryOf, he]
    rw [hd] at h
    simp [he, makeDirectory_of_pathExists h]

/-- In a directory that is there, one directory is made, or none. -/
theorem makeDirectories_eq
    (hparent : ∀ above, Path.parent? a = some above →
      fs.pathExists cwd (directoryOf above) = true) :
    (fs.makeDirectories cwd a).2 = fs ∨
      fs.makeDirectory cwd a = .ok (fs.makeDirectories cwd a).2 := by
  unfold makeDirectories makeDirectoriesUpTo
  by_cases he : a = []
  · simp [he]
  · simp only [List.isEmpty_iff, he, if_false]
    cases hm : fs.makeDirectory cwd a with
    | ok fs' => exact .inr rfl
    | error e =>
        left
        cases e with
        | notFound =>
            cases hlength : a.length with
            | zero => rfl
            | succ levels =>
                cases habove : Path.parent? a with
                | none => rfl
                | some above =>
                    have hkeep := makeDirectoriesUpTo_of_pathExists levels (hparent above habove)
                    cases hmade : makeDirectoriesUpTo cwd levels above fs with
                    | mk e? fs' =>
                        rw [hmade] at hkeep
                        obtain rfl : fs' = fs := hkeep
                        simp only [hmade]
                        cases e? with
                        | none => simp only [hm]
                        | some e => rfl
        | _ => rfl

def IsNamed (a : Path) : Prop := (Path.cutName a).2 ≠ ['.'] ∧ (Path.cutName a).2 ≠ ['.', '.']

theorem isNamed_of_bare (h : Text.endWhile (· ≠ '/') (bare a) ≠ ['.'] ∧
    Text.endWhile (· ≠ '/') (bare a) ≠ ['.', '.']) : IsNamed a := by
  have hcut : (Path.cutName a).2 =
      Text.endWhile (· ≠ '/') (Text.dropEndWhile (· = '/') a) := rfl
  rw [IsNamed, hcut]
  rw [bare] at h
  split at h
  · rename_i he
    rw [List.isEmpty_iff.1 he]
    exact ⟨by decide, by decide⟩
  · exact h

/-- A directory that was made is new, in a directory that was there, and the path leads to it. -/
theorem made_of_makeDirectory (tree : fs.IsTree) (h : fs.makeDirectory cwd a = .ok fs') :
    ∃ l, fs.get? l = none ∧ fs' = fs.put l .directory ∧ fs'.IsTree ∧
      fs'.locate cwd a = .ok l ∧ IsNamed a := by
  obtain ⟨l, hc, hl, hnone, rfl⟩ := makeDirectory_ok h
  obtain ⟨home, rfl, hdir, hdot, hdots⟩ := exists_home tree hl hnone
  have hne := ne_nil_of_get?_none hnone
  have hmade : (fs.put (home ++ [Text.endWhile (· ≠ '/') (bare a)]) .directory).get?
      (home ++ [Text.endWhile (· ≠ '/') (bare a)]) = some .directory := by
    rw [get?_put hne, if_pos rfl]
  refine ⟨_, hnone, rfl, tree.put hdir (.inl rfl), ?_, ?_⟩
  · exact locate_of_bare hc (locate_mono (extends_put hnone).keepsDirectories hl) hmade
  · exact isNamed_of_bare ⟨hdot, hdots⟩

theorem eraseBelow_extends (fs : FileSystem) (l : Location) : (fs.eraseBelow l).Extends fs := by
  intro m e hm
  rw [get?_eraseBelow] at hm
  split at hm
  · cases hm
  · exact hm

theorem erase_extends (fs : FileSystem) (l : Location) : (fs.erase l).Extends fs := by
  intro m e hm
  by_cases hl : l = []
  · subst hl
    rw [erase, get?, lookup_filter (p := fun k => decide (k ≠ []))] at hm
    by_cases hroot : m = []
    · simpa [hroot, get?] using hm
    · simpa [hroot, get?] using hm
  · rw [get?_erase hl] at hm
    split at hm
    · cases hm
    · exact hm

theorem removeTree_of_ne_directory
    (h : ∀ l, fs.locate cwd a = .ok l → fs.get? l ≠ some .directory) :
    (fs.removeTree cwd a).2 = fs := by
  rw [removeTree]
  cases hl : fs.locate cwd a with
  | error e => rfl
  | ok l =>
      have hd := h l hl
      cases he : fs.get? l with
      | none => simp [he]
      | some e =>
          cases e with
          | file contents executable => simp [he]
          | directory => exact absurd he hd

theorem removeTree_of_directory (hl : fs.locate cwd a = .ok l)
    (hd : fs.get? l = some .directory) (hb : (fs.eraseBelow l).locate cwd a = .ok l) :
    (fs.removeTree cwd a).2 = fs.eraseBelow l ∧ ¬IsNamed a ∨
      (fs.removeTree cwd a).2 = (fs.eraseBelow l).erase l := by
  have hdir : (fs.eraseBelow l).get? l = some .directory := by
    rw [get?_eraseBelow]
    simp [hd]
  rw [removeTree]
  by_cases hdot : (Path.cutName a).2 = ['.']
  · refine .inl ⟨?_, fun h => h.1 hdot⟩
    have hremove : (fs.eraseBelow l).removeDirectory cwd a = .error .invalidArgument := by
      rw [removeDirectory]
      simp [hb, hdir, hdot, bind, Except.bind]
    simp [hl, hd, hremove]
  · by_cases hdots : (Path.cutName a).2 = ['.', '.']
    · refine .inl ⟨?_, fun h => h.2 hdots⟩
      have hremove : (fs.eraseBelow l).removeDirectory cwd a = .error .directoryNotEmpty := by
        rw [removeDirectory]
        simp [hb, hdir, hdots, bind, Except.bind]
      simp [hl, hd, hremove]
    · right
      have hremove : (fs.eraseBelow l).removeDirectory cwd a = .ok ((fs.eraseBelow l).erase l) := by
        rw [removeDirectory]
        simp [hb, hdir, hdot, hdots, children_eraseBelow, bind, Except.bind]
      simp [hl, hd, hremove]

theorem Slot.extends_eraseBelow (h : fs₀.Slot cwd a l) (tree : fs₀.IsTree)
    (hext : fs₀.Extends fs) : fs₀.Extends (fs.eraseBelow l) := by
  intro m e hm
  have hp : l.isPrefixOf m = false := by
    rw [← Bool.not_eq_true, List.isPrefixOf_iff_prefix]
    intro hp
    rw [tree.none_below h.missing hp] at hm
    cases hm
  rw [get?_eraseBelow, hp]
  exact hext m e hm

theorem Slot.extends_erase (h : fs₀.Slot cwd a l) (hext : fs₀.Extends fs) :
    fs₀.Extends (fs.erase l) := by
  intro m e hm
  rw [get?_erase (ne_nil_of_get?_none h.missing), if_neg]
  · exact hext m e hm
  · rintro rfl
    rw [h.missing] at hm
    cases hm

/-- A tree is removed from its slot up: nothing else changes, and nothing that was there before
the slot was filled. A path that calls the slot by its name leaves nothing there. -/
theorem removeTree_effect (tree : fs₀.IsTree) (hext : fs₀.Extends fs)
    (hslot : ∀ l, fs.locate cwd a = .ok l → fs₀.Slot cwd a l) :
    fs₀.Extends (fs.removeTree cwd a).2 ∧ (fs.removeTree cwd a).2.Extends fs ∧
      ∀ l, fs₀.Slot cwd a l → IsNamed a → fs.get? l = some .directory →
        (fs.removeTree cwd a).2.get? l = none := by
  by_cases hdir : ∃ m, fs.locate cwd a = .ok m ∧ fs.get? m = some .directory
  · obtain ⟨m, hm, hd⟩ := hdir
    have hmine := hslot m hm
    have hne := ne_nil_of_get?_none hmine.missing
    have hemptied := hmine.extends_eraseBelow tree hext
    have hleft := hmine.leads _ hemptied (by rw [get?_eraseBelow]; simp [hd])
    rcases removeTree_of_directory hm hd hleft with ⟨heq, hnot⟩ | heq
    · rw [heq]
      exact ⟨hemptied, eraseBelow_extends fs m, fun l _ hn => absurd hn hnot⟩
    · rw [heq]
      refine ⟨hmine.extends_erase hemptied, (erase_extends _ m).trans (eraseBelow_extends fs m), ?_⟩
      intro l hl _ _
      rw [← hl.unique fs m hext hm, get?_erase hne, if_pos rfl]
  · have hkeep : (fs.removeTree cwd a).2 = fs :=
      removeTree_of_ne_directory fun l hl hd => hdir ⟨l, hl, hd⟩
    rw [hkeep]
    refine ⟨hext, .refl fs, ?_⟩
    intro l hl _ hd
    exact absurd ⟨l, hl.leads fs hext hd, hd⟩ hdir

end FileSystem

end SoloCall
