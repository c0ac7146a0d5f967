import Mathlib.Data.List.TakeWhile
import SoloCall.Proofs.Text.Split
import SoloCall.Text.Word

namespace SoloCall.Text

variable {w : Text}

def blankCodes : List Nat :=
  [9, 10, 11, 12, 13, 32, 0x85, 0xA0, 0x1680, 0x2000, 0x2001, 0x2002, 0x2003, 0x2004, 0x2005,
    0x2006, 0x2007, 0x2008, 0x2009, 0x200A, 0x2028, 0x2029, 0x202F, 0x205F, 0x3000]

theorem mem_blankCodes {c : Char} (h : isBlank c = true) : c.toNat ∈ blankCodes := by
  simp only [isBlank, Bool.or_eq_true, Bool.and_eq_true, decide_eq_true_eq] at h
  simp only [blankCodes, List.mem_cons, List.not_mem_nil, or_false]
  omega

theorem isWord_of_isBlank {c : Char} (h : isBlank c = true) : isWord c = false := by
  have hall : ∀ n ∈ blankCodes, isWord (Char.ofNat n) = false := by decide +kernel
  have hc := hall c.toNat (mem_blankCodes h)
  rwa [Char.ofNat_toNat] at hc

theorem isBlank_of_isWord {c : Char} (hc : isWord c = true) : isBlank c = false := by
  by_contra hb
  rw [Bool.not_eq_false] at hb
  rw [isWord_of_isBlank hb] at hc
  cases hc

theorem not_mem_of_allBlank {c : Char} (hw : w.allBlank = true) (hc : isBlank c = false) :
    c ∉ w := by
  intro hm
  have hb := List.all_eq_true.1 hw c hm
  rw [hc] at hb
  cases hb

theorem allBlank_append_left (hw : w.allBlank = true) (t : Text) :
    allBlank (w ++ t) = allBlank t := by
  rw [allBlank] at hw
  rw [allBlank, allBlank, List.all_append, hw, Bool.true_and]

theorem indent_append_left (hw : w.allBlank = true) (t : Text) :
    indent (w ++ t) = indent t + w.length := by
  have hall : ∀ c ∈ w, isBlank c = true := List.all_eq_true.1 hw
  rw [indent, indent, List.takeWhile_append_of_pos hall, List.length_append, Nat.add_comm]

theorem skipBlanks_append_left (hw : w.allBlank = true) (t : Text) :
    skipBlanks (w ++ t) = skipBlanks t :=
  List.dropWhile_append_of_pos (List.all_eq_true.1 hw)

theorem skipBlanks_suffix {s t : Text} (h : s <:+ t) : s.skipBlanks <:+ t.skipBlanks := by
  obtain ⟨u, rfl⟩ := h
  rw [skipBlanks, skipBlanks, List.dropWhile_append]
  split
  · exact List.suffix_rfl
  · exact (List.dropWhile_suffix _).trans (List.suffix_append _ _)

theorem trim_append_left (hw : w.allBlank = true) (t : Text) : trim (w ++ t) = trim t := by
  rw [trim, trim, skipBlanks_append_left hw]

theorem words_append_left (hw : w.allBlank = true) (t : Text) : words (w ++ t) = words t := by
  induction w with
  | nil => rfl
  | cons c w ih =>
      obtain ⟨hc, hw⟩ : isBlank c = true ∧ allBlank w = true := by simpa [allBlank] using hw
      have hpieces : blankPieces (c :: (w ++ t)) = [] :: blankPieces (w ++ t) := by
        simp [blankPieces, hc]
      rw [List.cons_append, words, hpieces]
      exact ih hw

theorem plainWords?_append_left (hw : w.allBlank = true) (t : Text) :
    plainWords? (w ++ t) = plainWords? t := by
  have hplain : (w.all fun c => isWord c || isBlank c) = true := by
    rw [List.all_eq_true]
    intro c hc
    rw [List.all_eq_true.1 hw c hc, Bool.or_true]
  rw [plainWords?, plainWords?, List.all_append, hplain, Bool.true_and, words_append_left hw]

theorem cut?_append_left {sep : Char} (hs : sep ∉ w) (t : Text) :
    cut? sep (w ++ t) = (cut? sep t).map fun p => (w ++ p.1, p.2) := by
  induction w with
  | nil => simp
  | cons c w ih =>
      obtain ⟨hc, hw⟩ : sep ≠ c ∧ sep ∉ w := by simpa using hs
      rw [List.cons_append, cut?, if_neg (Ne.symm hc), ih hw, Option.map_map]
      rfl

theorem cut?_of_not_mem {sep : Char} (hs : sep ∉ w) : cut? sep w = none := by
  have h := cut?_append_left hs []
  rwa [List.append_nil] at h

theorem not_mem_of_cut?_eq_none {sep : Char} {t : Text} (h : cut? sep t = none) : sep ∉ t := by
  induction t with
  | nil => exact List.not_mem_nil
  | cons c r ih =>
      by_cases hc : c = sep
      · simp [cut?, hc] at h
      · have hr : cut? sep r = none := by simpa [cut?, hc] using h
        simp [Ne.symm hc, ih hr]

theorem cut?_append_cons {sep : Char} (hs : sep ∉ w) (t : Text) :
    cut? sep (w ++ sep :: t) = some (w, t) := by
  rw [cut?_append_left hs, cut?, if_pos rfl, Option.map_some, List.append_nil]

theorem getLast?_append_left {t : Text} (ht : t ≠ []) (w : Text) :
    (w ++ t).getLast? = t.getLast? := by
  obtain ⟨front, c, rfl⟩ := (List.eq_nil_or_concat t).resolve_left ht
  simp [← List.append_assoc]

theorem dropEndWhile_append (p : Char → Bool) (front t : Text) :
    dropEndWhile p (front ++ t) =
      if dropEndWhile p t = [] then dropEndWhile p front else front ++ dropEndWhile p t := by
  simp only [dropEndWhile, List.reverse_append, List.dropWhile_append, List.isEmpty_iff,
    List.reverse_eq_nil_iff]
  split
  · rfl
  · rw [List.reverse_append, List.reverse_reverse]

theorem dropEndWhile_eq_nil {p : Char → Bool} {t : Text} (h : ∀ c ∈ t, p c = true) :
    dropEndWhile p t = [] := by
  rw [dropEndWhile, List.reverse_eq_nil_iff, List.dropWhile_eq_nil_iff]
  intro c hc
  exact h c (List.mem_reverse.1 hc)

theorem endWhile_append_left {p : Char → Bool} (hw : ∀ c ∈ w, p c = false) (t : Text) :
    endWhile p (w ++ t) = endWhile p t := by
  have hstop : w.reverse.takeWhile p = [] := by
    cases hr : w.reverse with
    | nil => rfl
    | cons c r =>
        have hc : p c = false := hw c (List.mem_reverse.1 (by rw [hr]; exact List.mem_cons_self))
        exact List.takeWhile_cons_of_neg (by simp [hc])
  rw [endWhile, endWhile, List.reverse_append, List.takeWhile_append, hstop, List.append_nil]
  split
  · rename_i hall
    rw [(List.takeWhile_prefix p).eq_of_length hall]
  · rfl

/-- The text with `w` put in front of each line. -/
def indentBy (t w : Text) : Text := join ['\n'] ((split '\n' t).map (w ++ ·))

theorem not_mem_of_mem_indented {lines : List Text} (hw : '\n' ∉ w)
    (h : ∀ line ∈ lines, '\n' ∉ line) : ∀ line ∈ lines.map (w ++ ·), '\n' ∉ line := by
  intro line hl
  obtain ⟨line, hm, rfl⟩ := List.mem_map.1 hl
  rw [List.mem_append]
  rintro (hn | hn)
  · exact hw hn
  · exact h line hm hn

theorem split_indentBy (hw : '\n' ∉ w) (t : Text) :
    split '\n' (t.indentBy w) = (split '\n' t).map (w ++ ·) := by
  apply split_join
  · simpa using split_ne_nil '\n' t
  · exact not_mem_of_mem_indented hw fun _ => not_mem_of_mem_split

theorem indentBy_join {lines : List Text} (hne : lines ≠ []) (h : ∀ line ∈ lines, '\n' ∉ line)
    (w : Text) : indentBy (join ['\n'] lines) w = join ['\n'] (lines.map (w ++ ·)) := by
  rw [indentBy, split_join hne h]

end SoloCall.Text
