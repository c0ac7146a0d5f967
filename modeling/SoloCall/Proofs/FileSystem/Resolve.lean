import Mathlib.Tactic.SplitIfs
import SoloCall.FileSystem.Operation
import SoloCall.Proofs.Path.Join

namespace SoloCall.FileSystem

variable {fs fs' : FileSystem} {cwd here l : Location} {names : List Text} {p : Path}

def KeepsDirectories (fs fs' : FileSystem) : Prop :=
  ∀ l, fs.get? l = some .directory → fs'.get? l = some .directory

@[simp] theorem walk_nil (fs : FileSystem) (here : Location) : fs.walk here [] = .ok here := rfl

theorem walk_of_directory (h : fs.get? here = some .directory) (name : Text) (rest : List Text) :
    fs.walk here (name :: rest) =
      if Path.isTrivial name then fs.walk here rest
      else if name = ['.', '.'] then fs.walk here.dropLast rest
      else if (Utf8.encode name).length > maxName then .error .nameTooLong
      else fs.walk (here ++ [name]) rest := by
  rw [walk, h]

theorem walk_of_ne_directory (h : fs.get? here ≠ some .directory) :
    ∃ e, ∀ name rest, fs.walk here (name :: rest) = .error e := by
  cases he : fs.get? here with
  | none => exact ⟨.notFound, fun name rest => by rw [walk, he]⟩
  | some entry =>
      cases entry with
      | file contents executable => exact ⟨.notADirectory, fun name rest => by rw [walk, he]⟩
      | directory => exact absurd he h

theorem isDirectory_of_walk_cons {name : Text} (h : fs.walk here (name :: names) = .ok l) :
    fs.get? here = some .directory := by
  by_cases hd : fs.get? here = some .directory
  · exact hd
  · obtain ⟨e, he⟩ := walk_of_ne_directory hd
    rw [he] at h
    cases h

theorem walk_mono (hk : KeepsDirectories fs fs') (h : fs.walk here names = .ok l) :
    fs'.walk here names = .ok l := by
  induction names generalizing here with
  | nil => exact h
  | cons name rest ih =>
      have hd := isDirectory_of_walk_cons h
      rw [walk_of_directory hd] at h
      rw [walk_of_directory (hk here hd)]
      split_ifs at h ⊢ <;> exact ih h

theorem walk_append (fs : FileSystem) (here : Location) (front back : List Text) :
    fs.walk here (front ++ back) = fs.walk here front >>= fun l => fs.walk l back := by
  induction front generalizing here with
  | nil => rfl
  | cons name rest ih =>
      rw [List.cons_append]
      by_cases hd : fs.get? here = some .directory
      · rw [walk_of_directory hd, walk_of_directory hd]
        split_ifs
        · exact ih here
        · exact ih _
        · rfl
        · exact ih _
      · obtain ⟨e, he⟩ := walk_of_ne_directory hd
        rw [he, he]
        rfl

theorem exists_walk_append {front back : List Text} (h : fs.walk here (front ++ back) = .ok l) :
    ∃ middle, fs.walk here front = .ok middle ∧ fs.walk middle back = .ok l := by
  rw [walk_append] at h
  cases hw : fs.walk here front with
  | error e => simp [hw, bind, Except.bind] at h
  | ok middle => exact ⟨middle, rfl, by simpa [hw, bind, Except.bind] using h⟩

theorem walk_trivial_cons {piece : Text} (ht : Path.isTrivial piece = true) (fs : FileSystem)
    (here : Location) (name : Text) (rest : List Text) :
    fs.walk here (piece :: name :: rest) = fs.walk here (name :: rest) := by
  by_cases hd : fs.get? here = some .directory
  · rw [walk_of_directory hd, if_pos ht]
  · obtain ⟨e, he⟩ := walk_of_ne_directory hd
    rw [he, he]

theorem walk_root (fs : FileSystem) (names : List Text) :
    fs.walk [] ([] :: names) = fs.walk [] names := by
  rw [walk_of_directory rfl]
  rfl

theorem walk_trivial (ht : ∀ name ∈ names, Path.isTrivial name = true)
    (h : fs.walk here names = .ok l) : l = here := by
  induction names with
  | nil => exact (Except.ok.inj h).symm
  | cons name rest ih =>
      rw [walk_of_directory (isDirectory_of_walk_cons h), if_pos (ht name (by simp))] at h
      exact ih (fun n hn => ht n (List.mem_cons_of_mem _ hn)) h

theorem walk_slash (h : fs.walk here names = .ok l) (hl : fs.get? l = some .directory) :
    fs.walk here (names ++ [[]]) = .ok l := by
  rw [walk_append, h]
  exact walk_of_directory hl [] []

/-- The directory a path leads to: the path is read as if a slash stood behind it. -/
def enter (fs : FileSystem) (cwd : Location) (home : Path) : Except OsError Location :=
  fs.walk (if Path.isAbsolute home then [] else cwd) (Text.split '/' home ++ [[]])

theorem enter_mono {home : Path} (hk : KeepsDirectories fs fs') (h : fs.enter cwd home = .ok l) :
    fs'.enter cwd home = .ok l := walk_mono hk h

theorem isDirectory_of_enter {home : Path} (h : fs.enter cwd home = .ok l) :
    fs.get? l = some .directory := by
  obtain ⟨middle, -, hw⟩ := exists_walk_append h
  have hdir := isDirectory_of_walk_cons hw
  obtain rfl : middle = l := Except.ok.inj ((walk_of_directory hdir [] []).symm.trans hw)
  exact hdir

theorem enter_of_locate {home : Path} (h : fs.locate cwd home = .ok l)
    (hl : fs.get? l = some .directory) : fs.enter cwd home = .ok l := by
  rw [locate] at h
  cases hc : checkPath home with
  | error e => simp [hc, bind, Except.bind] at h
  | ok u =>
      have hw : fs.walk (if Path.isAbsolute home then [] else cwd) (Text.split '/' home) = .ok l := by
        simpa [hc, bind, Except.bind] using h
      exact walk_slash hw hl

theorem enter_of_isDirectoryAt {home : Path} (h : fs.isDirectoryAt cwd home = true) :
    ∃ l, fs.enter cwd home = .ok l := by
  rw [isDirectoryAt, stat] at h
  cases hl : fs.locate cwd home with
  | error e => simp [hl, bind, Except.bind] at h
  | ok l =>
      cases he : fs.get? l with
      | none => simp [hl, he, bind, Except.bind] at h
      | some e =>
          have hdir : e = .directory := by
            cases e <;> simp_all [Entry.isDirectory, bind, Except.bind]
          exact ⟨l, enter_of_locate hl (hdir ▸ he)⟩

theorem walk_name {name : Text} (hn : Path.IsName name) (hl : fs.get? l = some .directory) :
    fs.walk l [name] =
      if (Utf8.encode name).length > maxName then .error .nameTooLong else .ok (l ++ [name]) := by
  simp [walk_of_directory hl, hn.not_isTrivial, hn.ne_dots]

theorem walk_empty_append {empty : List Text} (he : ∀ piece ∈ empty, piece = []) (fs : FileSystem)
    (here : Location) (name : Text) : fs.walk here (empty ++ [name]) = fs.walk here [name] := by
  induction empty with
  | nil => rfl
  | cons piece rest ih =>
      obtain rfl := he piece List.mem_cons_self
      have hrest := ih fun other ho => he other (List.mem_cons_of_mem _ ho)
      rw [List.cons_append, ← hrest]
      cases rest with
      | nil => exact walk_trivial_cons rfl fs here name []
      | cons next rest => exact walk_trivial_cons rfl fs here next (rest ++ [name])

theorem walk_split_join {name : Text} (hn : Path.IsName name) (fs : FileSystem)
    (here : Location) (home : Path) :
    fs.walk here (Text.split '/' (Path.join home name)) =
      fs.walk here (Text.split '/' home ++ [[]] ++ [name]) := by
  obtain ⟨init, final, hjoin, hhome, hempty⟩ := Path.exists_split_join hn home
  have hall : ∀ piece ∈ [] :: final, piece = [] := List.forall_mem_cons.2 ⟨rfl, hempty⟩
  rw [hjoin, hhome, List.append_assoc, walk_append, walk_append]
  congr 1
  funext l
  exact (walk_empty_append hall fs l name).symm

theorem locate_join {name : Text} (hn : Path.IsName name) {home : Path}
    (h : fs.enter cwd home = .ok l) :
    fs.locate cwd (Path.join home name) = checkPath (Path.join home name) >>= fun _ =>
      if (Utf8.encode name).length > maxName then .error .nameTooLong else .ok (l ++ [name]) := by
  rw [locate]
  congr 1
  funext _
  rw [Path.isAbsolute_join hn, walk_split_join hn, walk_append]
  rw [enter] at h
  rw [h]
  exact walk_name hn (isDirectory_of_enter h)

theorem checkPath_of_append {front name : Text} {u : Unit} (hn : name ≠ [])
    (h : checkPath (front ++ name) = .ok u) : checkPath name = .ok () := by
  have hlength : (Utf8.encode (front ++ name)).length =
      (Utf8.encode front).length + (Utf8.encode name).length := by
    simp [Utf8.encode]
  rw [checkPath] at h
  split_ifs at h with hnul hempty hlong
  rw [checkPath, if_neg, if_neg, if_neg]
  · omega
  · simpa using hn
  · intro hc
    apply hnul
    simp only [List.contains_eq_mem, List.mem_append, decide_eq_true_eq] at hc ⊢
    exact .inr hc

/-- A path that leads to a name in a directory, and the name alone read in that directory, lead to
the same place. -/
theorem locate_name_of_join {name : Text} (hn : Path.IsName name) {home : Path} {dir : Location}
    (hd : fs.enter cwd home = .ok dir) (h : fs.locate cwd (Path.join home name) = .ok l) :
    fs.locate dir name = .ok l := by
  rw [locate_join hn hd] at h
  cases hc : checkPath (Path.join home name) with
  | error e => simp [hc, bind, Except.bind] at h
  | ok u =>
      have hplace : (if (Utf8.encode name).length > maxName then Except.error OsError.nameTooLong
          else .ok (dir ++ [name])) = .ok l := by
        simpa [hc, bind, Except.bind] using h
      obtain ⟨front, hj, -⟩ := Path.exists_join_name hn home
      rw [locate, checkPath_of_append hn.ne_nil (hj ▸ hc), hn.not_isAbsolute,
        Text.split_of_not_mem hn.not_mem, ← hplace]
      exact walk_name hn (isDirectory_of_enter hd)

theorem locate_of_isAbsolute {p : Path} (h : Path.isAbsolute p = true) (fs : FileSystem)
    (cwd cwd' : Location) : fs.locate cwd p = fs.locate cwd' p := by
  rw [locate, locate, if_pos h, if_pos h]

theorem checkPath_ne_notFound {p : Path} {e : OsError} (hp : p ≠ [])
    (h : checkPath p = .error e) : e ≠ .notFound := by
  rintro rfl
  rw [checkPath] at h
  split_ifs at h <;> simp_all

/-- A name in a directory leads to one place for good, or it leads nowhere for good, and then not
because something is missing. -/
theorem locate_join_cases {name : Text} (hn : Path.IsName name) {home : Path}
    (h : fs.enter cwd home = .ok l) :
    (∃ e, e ≠ .notFound ∧ ∀ fs', KeepsDirectories fs fs' →
      fs'.locate cwd (Path.join home name) = .error e) ∨
    ∀ fs', KeepsDirectories fs fs' → fs'.locate cwd (Path.join home name) = .ok (l ++ [name]) := by
  cases hc : checkPath (Path.join home name) with
  | error e =>
      refine .inl ⟨e, checkPath_ne_notFound (Path.join_ne_nil hn home) hc, fun fs' hk => ?_⟩
      rw [locate_join hn (enter_mono hk h), hc]
      rfl
  | ok u =>
      by_cases hlong : (Utf8.encode name).length > maxName
      · refine .inl ⟨.nameTooLong, by simp, fun fs' hk => ?_⟩
        rw [locate_join hn (enter_mono hk h), hc, if_pos hlong]
        rfl
      · refine .inr fun fs' hk => ?_
        rw [locate_join hn (enter_mono hk h), hc, if_neg hlong]
        rfl

theorem locate_join_error {name : Text} (hn : Path.IsName name) {home : Path} {e : OsError}
    (h : fs.enter cwd home = .error e) : ∃ e', fs.locate cwd (Path.join home name) = .error e' := by
  rw [locate]
  cases hc : checkPath (Path.join home name) with
  | error e' => exact ⟨e', rfl⟩
  | ok u =>
      refine ⟨e, ?_⟩
      show fs.walk _ _ = _
      rw [Path.isAbsolute_join hn, walk_split_join hn, walk_append]
      rw [enter] at h
      rw [h]
      rfl

theorem locate_eq_ok : fs.locate cwd p = .ok l ↔ checkPath p = .ok () ∧
    fs.walk (if Path.isAbsolute p then [] else cwd) (Text.split '/' p) = .ok l := by
  rw [locate]
  cases checkPath p with
  | error e => simp [bind, Except.bind]
  | ok u => simp [bind, Except.bind]

theorem locate_mono (hk : KeepsDirectories fs fs') (h : fs.locate cwd p = .ok l) :
    fs'.locate cwd p = .ok l := by
  rw [locate_eq_ok] at h ⊢
  exact ⟨h.1, walk_mono hk h.2⟩

/-- A path that can be followed leads to a location, or through it. -/
def Passes (fs : FileSystem) (cwd : Location) (p : Path) (l : Location) : Prop :=
  checkPath p = .ok () ∧ ∃ front back, Text.split '/' p = front ++ back ∧
    fs.walk (if Path.isAbsolute p then [] else cwd) front = .ok l

theorem Passes.of_locate (h : fs.locate cwd p = .ok l) : fs.Passes cwd p l := by
  obtain ⟨hcheck, hwalk⟩ := locate_eq_ok.1 h
  exact ⟨hcheck, _, [], by simp, hwalk⟩

theorem Passes.isDirectory_or {name : Text} (hn : Path.IsName name) {home : Path} {dir : Location}
    (he : fs.enter cwd home = .ok dir) (hk : KeepsDirectories fs fs')
    (h : fs'.Passes cwd (Path.join home name) l) :
    fs.get? l = some .directory ∨ fs'.locate cwd (Path.join home name) = .ok l := by
  obtain ⟨hcheck, front, back, hsplit, hwalk⟩ := h
  obtain ⟨init, final, hjoin, hhome, -⟩ := Path.exists_split_join hn home
  rcases List.eq_nil_or_concat back with rfl | ⟨rest, last, rfl⟩
  · rw [List.append_nil] at hsplit
    exact .inr (locate_eq_ok.2 ⟨hcheck, hsplit ▸ hwalk⟩)
  · rw [hjoin, List.concat_eq_append, ← List.append_assoc] at hsplit
    obtain ⟨rfl, -⟩ := List.append_inj' hsplit rfl
    rw [enter, hhome, List.append_assoc] at he
    obtain ⟨middle, hfront, hrest⟩ := exists_walk_append he
    rw [Path.isAbsolute_join hn] at hwalk
    obtain rfl : middle = l := Except.ok.inj ((walk_mono hk hfront).symm.trans hwalk)
    left
    cases rest with
    | nil => exact isDirectory_of_walk_cons hrest
    | cons next rest => exact isDirectory_of_walk_cons hrest

end SoloCall.FileSystem
