import Mathlib.Data.List.DropRight
import SoloCall.Path
import SoloCall.Proofs.Text.Split

namespace SoloCall.Path

theorem exists_trivial_end (pieces : List Text) :
    ∃ final, pieces = (pieces.reverse.dropWhile isTrivial).reverse ++ final ∧
      ∀ piece ∈ final, isTrivial piece = true := by
  refine ⟨(pieces.reverse.takeWhile isTrivial).reverse, ?_, ?_⟩
  · rw [← List.reverse_append, List.takeWhile_append_dropWhile, List.reverse_reverse]
  · intro piece hp
    exact List.mem_takeWhile_imp (List.mem_reverse.1 hp)

def real (pieces : List Text) : List Text := pieces.filter fun piece => !isTrivial piece

theorem real_append (xs ys : List Text) : real (xs ++ ys) = real xs ++ real ys :=
  List.filter_append xs ys

theorem real_of_trivial {pieces : List Text} (h : ∀ piece ∈ pieces, isTrivial piece = true) :
    real pieces = [] := by
  rw [real, List.filter_eq_nil_iff]
  intro piece hp
  simp [h piece hp]

theorem steps_eq_real (p : Path) : steps p = real (Text.split '/' p) := rfl

theorem steps_cons_slash (p : Path) : steps ('/' :: p) = steps p := by
  rw [steps_eq_real, Text.split_cons_sep]
  rfl

theorem split_dot_slash (p : Path) :
    Text.split '/' ('.' :: '/' :: p) = ['.'] :: Text.split '/' p :=
  Text.split_append_sep (t := ['.']) (by simp) p

theorem steps_dot_slash (p : Path) : steps ('.' :: '/' :: p) = steps p := by
  rw [steps_eq_real, split_dot_slash]
  rfl

theorem steps_join {pieces : List Text} (h : ∀ piece ∈ pieces, '/' ∉ piece) :
    steps (Text.join ['/'] pieces) = real pieces := by
  cases pieces with
  | nil => rfl
  | cons piece rest => rw [steps_eq_real, Text.split_join (by simp) h]

/-- A path read in the directory `above`: the names up to there, a name, and behind it nothing but
pieces that name nothing. -/
structure CutAtName (p above : Path) (front : List Text) (name : Text) (final : List Text) :
    Prop where
  split_eq : Text.split '/' p = front ++ name :: final
  steps_above : steps above = real front
  isAbsolute_above : isAbsolute above = isAbsolute p
  name_real : isTrivial name = false
  final_trivial : ∀ piece ∈ final, isTrivial piece = true

theorem anchor_cases (p : Path) :
    (∃ q, p = '/' :: q) ∨ p = ['.'] ∨ (∃ q, p = '.' :: '/' :: q) ∨
      anchorLength p = 0 ∧ isAbsolute p = false := by
  rw [anchorLength.eq_def]
  split
  · exact .inl ⟨_, rfl⟩
  · exact .inr (.inl rfl)
  · exact .inr (.inr (.inl ⟨_, rfl⟩))
  · rename_i hslash _ _
    refine .inr (.inr (.inr ⟨rfl, ?_⟩))
    cases p with
    | nil => rfl
    | cons c q =>
        have hc : c ≠ '/' := by
          rintro rfl
          exact hslash q rfl
        simp [isAbsolute, hc]

/-- The pieces after the anchor: those of the directory above, the name, and trivial ones behind
either. -/
theorem exists_cut {p : Path} (h : pieces p ≠ []) :
    ∃ kept between name final,
      Text.split '/' (p.drop (anchorLength p)) = kept ++ between ++ name :: final ∧
      parent? p = some (anchor p ++ Text.join ['/'] kept) ∧ isTrivial name = false ∧
      (∀ piece ∈ between, isTrivial piece = true) ∧ (∀ piece ∈ final, isTrivial piece = true) ∧
      ∀ piece ∈ kept, '/' ∉ piece := by
  obtain ⟨final, hfinal, htrivial⟩ :=
    exists_trivial_end (Text.split '/' (p.drop (anchorLength p)))
  rw [← pieces] at hfinal
  obtain ⟨front, name, hname⟩ := List.eq_nil_or_concat (pieces p) |>.resolve_left h
  rw [List.concat_eq_append] at hname
  obtain ⟨between, hbetween, ht⟩ := exists_trivial_end front
  have hreal : isTrivial name = false := by
    have hlast := List.rdropWhile_last_not isTrivial (Text.split '/' (p.drop (anchorLength p))) h
    have heq : (pieces p).getLast h = name := by simp [hname]
    rw [← Bool.not_eq_true, ← heq]
    exact hlast
  refine ⟨(front.reverse.dropWhile isTrivial).reverse, between, name, final, ?_, ?_, hreal, ht,
    htrivial, ?_⟩
  · rw [← hbetween, hfinal, hname]
    simp
  · simp [parent?, hname]
  · intro piece hp
    apply Text.not_mem_of_mem_split (t := p.drop (anchorLength p))
    rw [hfinal, hname, hbetween]
    simp [hp]

theorem steps_dot_join {kept : List Text} (hkept : ∀ piece ∈ kept, '/' ∉ piece)
    (hfirst : ∀ first rest, kept = first :: rest → first = []) :
    steps ('.' :: Text.join ['/'] kept) = real kept := by
  cases kept with
  | nil => rfl
  | cons first kept =>
      obtain rfl := hfirst first kept rfl
      cases kept with
      | nil => rfl
      | cons next kept =>
          rw [Text.join_cons_cons]
          show steps ('.' :: '/' :: Text.join ['/'] (next :: kept)) = real (next :: kept)
          rw [steps_dot_slash, steps_join fun piece hp => hkept piece (List.mem_cons_of_mem _ hp)]

theorem ne_nil_of_split {p first : Text} {rest : List Text} (habs : isAbsolute p = false)
    (hs : Text.split '/' p = first :: rest) (hrest : rest ≠ []) : first ≠ [] := by
  rintro rfl
  cases p with
  | nil =>
      rw [Text.split_nil] at hs
      exact hrest (List.cons.inj hs).2.symm
  | cons c r =>
      have hc : c ≠ '/' := by
        rintro rfl
        cases habs
      rw [Text.split_cons_of_ne hc] at hs
      split at hs <;> cases hs

theorem isAbsolute_join_cons {first : Text} (hne : first ≠ []) (hslash : '/' ∉ first)
    (rest : List Text) : isAbsolute (Text.join ['/'] (first :: rest)) = false := by
  cases first with
  | nil => exact absurd rfl hne
  | cons c r =>
      have hc : c ≠ '/' := by
        rintro rfl
        exact hslash List.mem_cons_self
      cases rest with
      | nil => simp [Text.join, isAbsolute, hc]
      | cons next rest => simp [Text.join_cons_cons, isAbsolute, hc]

theorem exists_cutAtName {p : Path} (h : pieces p ≠ []) :
    ∃ above front name final, parent? p = some above ∧ CutAtName p above front name final := by
  obtain ⟨kept, between, name, final, hsplit, hparent, hname, hbetween, hfinal, hkept⟩ :=
    exists_cut h
  have hreal : real (kept ++ between) = real kept := by
    rw [real_append, real_of_trivial hbetween, List.append_nil]
  rcases anchor_cases p with ⟨q, rfl⟩ | rfl | ⟨q, rfl⟩ | ⟨hanchor, habs⟩
  · refine ⟨_, [] :: (kept ++ between), name, final, hparent, ?_, ?_, rfl, hname, hfinal⟩
    · rw [Text.split_cons_sep]
      exact congrArg ([] :: ·) hsplit
    · show steps ('/' :: Text.join ['/'] kept) = real (kept ++ between)
      rw [steps_cons_slash, steps_join hkept, hreal]
  · exact absurd rfl h
  · have hrest : [] :: Text.split '/' q = kept ++ between ++ name :: final := by
      rw [← hsplit]
      exact (Text.split_cons_sep '/' q).symm
    obtain ⟨rest, hcons⟩ : ∃ rest, kept ++ between = [] :: rest := by
      cases hkb : kept ++ between with
      | nil =>
          rw [hkb] at hrest
          obtain ⟨rfl, -⟩ := List.cons.inj hrest
          cases hname
      | cons first rest =>
          rw [hkb] at hrest
          obtain ⟨rfl, -⟩ := List.cons.inj hrest
          exact ⟨rest, rfl⟩
    refine ⟨_, ['.'] :: rest, name, final, hparent, ?_, ?_, rfl, hname, hfinal⟩
    · rw [hcons] at hrest
      rw [split_dot_slash, (List.cons.inj hrest).2]
      rfl
    · have hrealRest : real (['.'] :: rest) = real kept := by
        rw [← hreal, hcons]
        rfl
      rw [hrealRest]
      apply steps_dot_join hkept
      rintro first kept rfl
      exact (List.cons.inj hcons).1
  · have hdrop : p.drop (anchorLength p) = p := by rw [hanchor, List.drop_zero]
    rw [hdrop] at hsplit
    have habove : anchor p ++ Text.join ['/'] kept = Text.join ['/'] kept := by
      rw [anchor, hanchor]
      rfl
    rw [habove] at hparent
    refine ⟨_, kept ++ between, name, final, hparent, hsplit, ?_, ?_, hname, hfinal⟩
    · rw [steps_join hkept, hreal]
    · rw [habs]
      cases kept with
      | nil => rfl
      | cons first kept =>
          have hne : first ≠ [] := ne_nil_of_split habs hsplit (by simp)
          exact isAbsolute_join_cons hne (hkept first List.mem_cons_self) kept

/-- A path without a name leads to where it starts. -/
theorem trivial_of_pieces_eq_nil {p : Path} (h : pieces p = []) :
    ∀ piece ∈ Text.split '/' p, isTrivial piece = true := by
  have hbody : ∀ piece ∈ Text.split '/' (p.drop (anchorLength p)), isTrivial piece = true := by
    obtain ⟨final, hfinal, htrivial⟩ :=
      exists_trivial_end (Text.split '/' (p.drop (anchorLength p)))
    rw [← pieces, h, List.nil_append] at hfinal
    rwa [hfinal]
  rcases anchor_cases p with ⟨q, rfl⟩ | rfl | ⟨q, rfl⟩ | ⟨hanchor, -⟩
  · intro piece hp
    rw [Text.split_cons_sep] at hp
    rcases List.mem_cons.1 hp with rfl | hp
    · rfl
    · exact hbody piece hp
  · decide
  · intro piece hp
    rw [split_dot_slash] at hp
    rcases List.mem_cons.1 hp with rfl | hp
    · rfl
    · exact hbody piece (by
        show piece ∈ Text.split '/' ('/' :: q)
        rw [Text.split_cons_sep]
        exact List.mem_cons_of_mem _ hp)
  · rwa [hanchor, List.drop_zero] at hbody

end SoloCall.Path
