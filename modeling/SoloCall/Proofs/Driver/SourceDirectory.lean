import SoloCall.Dispatch.Execute
import SoloCall.Proofs.FileSystem.Resolve
import SoloCall.Proofs.Path.Parent

namespace SoloCall

namespace Path

theorem isAbsolute_join_of_isAbsolute {p : Path} (h : isAbsolute p = true) (q : Path) :
    isAbsolute (join p q) = true := by
  rw [join]
  split
  · assumption
  · cases p with
    | nil => simp [isAbsolute] at h
    | cons c r => split <;> exact h

theorem isAbsolute_foldl_join {start : Path} (h : isAbsolute start = true) (steps : List Text) :
    isAbsolute (steps.foldl join start) = true := by
  induction steps generalizing start with
  | nil => exact h
  | cons step rest ih => exact ih (isAbsolute_join_of_isAbsolute h step)

theorem isAbsolute_absolute {cwd : Path} (h : isAbsolute cwd = true) (p : Path) :
    isAbsolute (absolute cwd p) = true := by
  have hwhole (start : Path) (hs : isAbsolute start = true) :
      isAbsolute (if p.getLast? = some '/' then join ((steps p).foldl join start) []
        else (steps p).foldl join start) = true := by
    have hsteps := isAbsolute_foldl_join hs (steps p)
    split
    · exact isAbsolute_join_of_isAbsolute hsteps []
    · exact hsteps
  apply hwhole
  split
  · rfl
  · rfl
  · rfl
  · exact h

/-- The pieces of an absolute path that has a name: those of the directory above it, the name, and
trivial ones behind either. -/
theorem exists_pieces {q : Text} {name : Text} (h : fileName? ('/' :: q) = some name) :
    ∃ kept between final, Text.split '/' q = kept ++ between ++ name :: final ∧
      parent? ('/' :: q) = some ('/' :: Text.join ['/'] kept) ∧
      (∀ piece ∈ between, isTrivial piece = true) ∧ ∀ piece ∈ kept, '/' ∉ piece := by
  obtain ⟨final, hfinal, -⟩ := exists_trivial_end (Text.split '/' q)
  have hpieces : pieces ('/' :: q) = ((Text.split '/' q).reverse.dropWhile isTrivial).reverse := rfl
  rw [← hpieces] at hfinal
  have hlast : (pieces ('/' :: q)).getLast? = some name := by
    rw [fileName?] at h
    cases hl : (pieces ('/' :: q)).getLast? with
    | none => simp [hl] at h
    | some piece =>
        rw [hl] at h
        dsimp only at h
        split at h
        · simp at h
        · exact h
  obtain ⟨front, hfront⟩ := List.getLast?_eq_some_iff.1 hlast
  obtain ⟨between, hbetween, ht⟩ := exists_trivial_end front
  refine ⟨(front.reverse.dropWhile isTrivial).reverse, between, final, ?_, ?_, ht, ?_⟩
  · rw [← hbetween, hfinal, hfront]
    simp
  · simp [parent?, hfront, anchor, anchorLength]
  · intro piece hp
    apply Text.not_mem_of_mem_split (t := q)
    rw [hfinal, hfront, hbetween]
    simp [hp]

theorem not_mem_of_fileName? {p : Path} {name : Text} (h : fileName? p = some name) :
    '/' ∉ name := by
  obtain ⟨final, hfinal, -⟩ := exists_trivial_end (Text.split '/' (p.drop (anchorLength p)))
  apply Text.not_mem_of_mem_split (t := p.drop (anchorLength p))
  rw [hfinal]
  apply List.mem_append_left
  rw [fileName?] at h
  split at h
  · cases h
  · rename_i piece hlast
    split at h
    · cases h
    · obtain rfl := Option.some.inj h
      exact List.mem_of_getLast? hlast

end Path

namespace FileSystem

variable {fs : FileSystem} {cwd l : Location}

theorem enter_parent {q name : Text} (hl : fs.locate cwd ('/' :: q) = .ok l)
    (hn : Path.fileName? ('/' :: q) = some name) {above : Path}
    (ha : Path.parent? ('/' :: q) = some above) : ∃ dir, fs.enter cwd above = .ok dir := by
  obtain ⟨kept, between, final, hsplit, hparent, ht, hk⟩ := Path.exists_pieces hn
  obtain rfl : '/' :: Text.join ['/'] kept = above := by simpa [hparent] using ha
  have hwalk : fs.walk [] (Text.split '/' q) = .ok l := by
    rw [locate] at hl
    cases hc : checkPath ('/' :: q) with
    | error e => simp [hc, bind, Except.bind] at hl
    | ok u =>
        simpa [hc, bind, Except.bind, Path.isAbsolute, Text.split_cons_sep, walk_root] using hl
  rw [hsplit] at hwalk
  obtain ⟨middle, hbelow, hname⟩ := exists_walk_append hwalk
  obtain ⟨dir, hdir, hbetween⟩ := exists_walk_append hbelow
  obtain rfl := walk_trivial ht hbetween
  refine ⟨middle, ?_⟩
  have hstart : fs.walk [] (Text.split '/' (Text.join ['/'] kept)) = .ok middle := by
    cases kept with
    | nil => rwa [Text.join, Text.split_nil, walk_root]
    | cons piece rest => rwa [Text.split_join (by simp) hk]
  rw [enter]
  have hslash := walk_slash hstart (isDirectory_of_walk_cons hname)
  simpa [Path.isAbsolute, Text.split_cons_sep, walk_root] using hslash

end FileSystem

namespace Driver.SourcePath

theorem place?_eq (p : Path) : place? ⟨p, .exact⟩ =
    (Path.fileName? p).bind fun fileName => (Path.stem? p).bind fun stem =>
      some ⟨if ((Path.parent? p).getD []).isEmpty then ['.'] else (Path.parent? p).getD [],
        fileName, stem⟩ := rfl

theorem directory_eq_parent {p above : Path} {place : Place}
    (hp : place? ⟨p, .exact⟩ = some place) (ha : Path.parent? p = some above)
    (hne : above ≠ []) : place.directory = above := by
  rw [place?_eq, Option.bind_eq_some_iff] at hp
  obtain ⟨fileName, -, hp⟩ := hp
  obtain ⟨stem, -, hplace⟩ := Option.bind_eq_some_iff.1 hp
  obtain rfl := Option.some.inj hplace
  simp [ha, hne]

theorem place?_text {p : SourcePath} {place : Place} (h : p.place? = some place) :
    place? ⟨p.text, .exact⟩ = some place := by
  obtain ⟨_, -, hplace⟩ := Option.bind_eq_some_iff.1 h
  exact hplace

theorem slash_not_mem_fileName {p : SourcePath} {place : Place} (h : p.place? = some place) :
    '/' ∉ place.fileName := by
  have hp := place?_text h
  rw [place?_eq] at hp
  obtain ⟨fileName, hn, hp⟩ := Option.bind_eq_some_iff.1 hp
  obtain ⟨stem, -, hplace⟩ := Option.bind_eq_some_iff.1 hp
  obtain rfl := Option.some.inj hplace
  exact Path.not_mem_of_fileName? hn

theorem parent?_of_isAbsolute {p : SourcePath} {place : Place} (h : p.place? = some place)
    (ha : Path.isAbsolute p.text = true) :
    Path.parent? p.text = some place.directory ∧ Path.isAbsolute place.directory = true := by
  replace h := place?_text h
  obtain ⟨q, hq⟩ : ∃ q, p.text = '/' :: q := by
    cases ht : p.text with
    | nil => simp [ht, Path.isAbsolute] at ha
    | cons c q =>
        obtain rfl : c = '/' := by simpa [ht, Path.isAbsolute] using ha
        exact ⟨q, rfl⟩
  rw [hq] at h ⊢
  cases hn : Path.fileName? ('/' :: q) with
  | none => simp [place?_eq, hn] at h
  | some name =>
      obtain ⟨kept, between, final, -, hparent, -, -⟩ := Path.exists_pieces hn
      rw [hparent, directory_eq_parent h hparent (by simp)]
      exact ⟨rfl, rfl⟩

theorem isAbsolute_directory {p : SourcePath} {place : Place} (h : p.place? = some place)
    (ha : Path.isAbsolute p.text = true) : Path.isAbsolute place.directory = true :=
  (parent?_of_isAbsolute h ha).2

end Driver.SourcePath

namespace Dispatcher

open Driver FileSystem

theorem locate_of_validate {r : Request} {m : Machine} {path : Path} {text : Text}
    (h : validate r m = .ok (path, text)) :
    ∃ q l, path = '/' :: q ∧ m.files.locate m.cwd path = .ok l := by
  rw [validate] at h
  split at h
  · simp at h
  · dsimp only at h
    split at h
    · simp at h
    · rename_i hexists
      have habs : Path.isAbsolute (Path.absolute m.cwd.path r.file) = true :=
        Path.isAbsolute_absolute rfl r.file
      cases hr : m.files.readText m.cwd (Path.absolute m.cwd.path r.file) with
      | error e => simp [hr] at h
      | ok found =>
          obtain ⟨rfl, -⟩ : Path.absolute m.cwd.path r.file = path ∧ found = text := by
            simpa [hr] using h
          cases hp : Path.absolute m.cwd.path r.file with
          | nil => simp [hp, Path.isAbsolute] at habs
          | cons c q =>
              obtain rfl : c = '/' := by simpa [hp, Path.isAbsolute] using habs
              cases hl : m.files.locate m.cwd ('/' :: q) with
              | error e =>
                  simp [readText, FileSystem.read, stat, hp, hl, bind, Except.bind] at hr
              | ok l => exact ⟨q, l, rfl, rfl⟩

/-- A source that was read lies in a directory that is there. -/
theorem enter_of_validate {r : Request} {m : Machine} {path : Path} {text : Text} {place : Place}
    (h : validate r m = .ok (path, text)) (hp : SourcePath.place? ⟨path, .exact⟩ = some place) :
    ∃ dir, m.files.enter m.cwd place.directory = .ok dir := by
  obtain ⟨q, l, rfl, hl⟩ := locate_of_validate h
  cases hn : Path.fileName? ('/' :: q) with
  | none => simp [SourcePath.place?_eq, hn] at hp
  | some name =>
      obtain ⟨kept, between, final, -, hparent, -, -⟩ := Path.exists_pieces hn
      rw [SourcePath.directory_eq_parent hp hparent (by simp)]
      exact enter_parent hl hn hparent

end Dispatcher

end SoloCall
