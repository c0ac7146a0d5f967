import SoloCall.Text.Word

namespace SoloCall

namespace Text

variable {c : Char}

theorem cut?_append {sep : Char} (hc : c ≠ sep) (t : Text) :
    cut? sep (t ++ [c]) = (cut? sep t).map fun p => (p.1, p.2 ++ [c]) := by
  induction t with
  | nil => simp [cut?, hc]
  | cons d r ih =>
      by_cases hd : d = sep
      · simp [cut?, hd]
      · simp only [List.cons_append, cut?, hd, if_false, ih, Option.map_map]
        rfl

theorem allBlank_append (hc : isBlank c = true) (t : Text) :
    allBlank (t ++ [c]) = allBlank t := by
  simp [allBlank, hc]

theorem indent_append {t : Text} (ht : t.allBlank = false) (c : Char) :
    indent (t ++ [c]) = indent t := by
  induction t with
  | nil => cases ht
  | cons d r ih =>
      cases hd : isBlank d with
      | false => simp [indent, hd]
      | true =>
          have hr : allBlank r = false := by simpa [allBlank, hd] using ht
          simpa [indent, hd] using ih hr

theorem skipBlanks_append (hc : isBlank c = true) (t : Text) :
    skipBlanks t = [] ∧ skipBlanks (t ++ [c]) = [] ∨
      ∃ d r, skipBlanks t = d :: r ∧ skipBlanks (t ++ [c]) = d :: (r ++ [c]) := by
  induction t with
  | nil => exact Or.inl ⟨rfl, by simp [skipBlanks, hc]⟩
  | cons d r ih =>
      cases hd : isBlank d with
      | true =>
          rw [List.cons_append, skipBlanks_cons_of_blank hd, skipBlanks_cons_of_blank hd]
          exact ih
      | false =>
          rw [List.cons_append, skipBlanks_cons_of_not_blank hd, skipBlanks_cons_of_not_blank hd]
          exact Or.inr ⟨d, r, rfl, rfl⟩

theorem startsWith_append {head : Text} (hc : c ∉ head) (t : Text) :
    startsWith head (t ++ [c]) = startsWith head t := by
  induction head generalizing t with
  | nil => rfl
  | cons h head ih =>
      obtain ⟨hne, hc⟩ : c ≠ h ∧ c ∉ head := by simpa using hc
      cases t with
      | nil => simp [startsWith, after?, Ne.symm hne]
      | cons d r =>
          by_cases hd : h = d
          · simpa [startsWith, after?, hd] using ih hc r
          · simp [startsWith, after?, hd]

theorem startsWith_skipBlanks_append {head : Text} (hc : isBlank c = true) (hn : c ∉ head)
    (t : Text) : startsWith head (skipBlanks (t ++ [c])) = startsWith head (skipBlanks t) := by
  rcases skipBlanks_append hc t with ⟨h, h'⟩ | ⟨d, r, h, h'⟩
  · rw [h, h']
  · rw [h, h', ← List.cons_append, startsWith_append hn]

theorem trim_append (hc : isBlank c = true) (t : Text) : trim (t ++ [c]) = trim t := by
  rw [trim, trim]
  rcases skipBlanks_append hc t with ⟨h, h'⟩ | ⟨d, r, h, h'⟩
  · rw [h, h']
  · rw [h, h', ← List.cons_append]
    simp [trimEnd, dropEndWhile, hc]

theorem word?_append (hw : isWord c = false) (t : Text) :
    word? (t ++ [c]) = (word? t).map fun p => (p.1, p.2 ++ [c]) := by
  have htake : (t ++ [c]).takeWhile isWord = t.takeWhile isWord := by
    rw [List.takeWhile_append]
    split
    · rename_i hall
      rw [List.takeWhile_cons_of_neg (by simp [hw]), List.append_nil]
      exact ((List.takeWhile_prefix _).eq_of_length hall).symm
    · rfl
  have hdrop : (t ++ [c]).dropWhile isWord = t.dropWhile isWord ++ [c] := by
    rw [List.dropWhile_append]
    split <;> simp_all
  simp only [word?, htake, hdrop]
  split <;> rfl

end Text

end SoloCall
