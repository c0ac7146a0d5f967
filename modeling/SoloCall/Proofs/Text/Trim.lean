import SoloCall.Proofs.Text.Blank
import SoloCall.Proofs.Text.Words

namespace SoloCall.Text

variable {t w : Text} {c : Char}

theorem allBlank_skipBlanks (t : Text) : t.skipBlanks.allBlank = t.allBlank := by
  have hcut : t.takeWhile isBlank ++ t.skipBlanks = t := List.takeWhile_append_dropWhile
  have hblank : allBlank (t.takeWhile isBlank) = true :=
    List.all_eq_true.2 fun _ => List.mem_takeWhile_imp
  rw [← allBlank_append_left hblank, hcut]

theorem trim_eq_nil_iff : t.trim = [] ↔ t.allBlank = true := by
  constructor
  · intro h
    have hback : ∀ c ∈ skipBlanks t, isBlank c = true := by
      simpa [trim, trimEnd, dropEndWhile] using h
    rw [← allBlank_skipBlanks]
    exact List.all_eq_true.2 hback
  · intro h
    have hskip : skipBlanks t = [] := List.dropWhile_eq_nil_iff.2 (List.all_eq_true.1 h)
    rw [trim, hskip]
    rfl

theorem isBlank_of_head?_trim (h : t.trim.head? = some c) : isBlank c = false := by
  obtain ⟨r, hr⟩ := List.head?_eq_some_iff.1 h
  have hcut : skipBlanks t = c :: (r ++ endWhile isBlank (skipBlanks t)) := by
    rw [← List.cons_append, ← hr]
    exact (dropEndWhile_append_endWhile isBlank (skipBlanks t)).symm
  have hstop := List.head?_dropWhile_not isBlank t
  rw [skipBlanks] at hcut
  rw [hcut] at hstop
  simpa using hstop

theorem isBlank_of_getLast?_trim (h : t.trim.getLast? = some c) : isBlank c = false :=
  getLast?_dropEndWhile h

theorem mem_of_mem_trim (h : c ∈ t.trim) : c ∈ t := by
  have hskip : c ∈ t.skipBlanks :=
    List.mem_reverse.1 ((List.dropWhile_suffix isBlank).subset (List.mem_reverse.1 h))
  exact (List.dropWhile_suffix isBlank).subset hskip

theorem trim_eq_self (hhead : ∀ c, t.head? = some c → isBlank c = false)
    (hlast : ∀ c, t.getLast? = some c → isBlank c = false) : t.trim = t := by
  have hskip : skipBlanks t = t := by
    cases t with
    | nil => rfl
    | cons c r => exact skipBlanks_cons_of_not_blank (hhead c rfl) r
  rw [trim, hskip, trimEnd, dropEndWhile_eq_self hlast]

theorem trim_trim (t : Text) : t.trim.trim = t.trim :=
  trim_eq_self (fun _ => isBlank_of_head?_trim) fun _ => isBlank_of_getLast?_trim

theorem skipBlanks_of_trim_eq_self (ht : t.trim = t) : t.skipBlanks = t := by
  cases t with
  | nil => rfl
  | cons c r =>
      have hc : isBlank c = false := isBlank_of_head?_trim (by rw [ht]; rfl)
      exact skipBlanks_cons_of_not_blank hc r

theorem trimEnd_of_trim_eq_self (ht : t.trim = t) : t.trimEnd = t := by
  rw [trimEnd]
  apply dropEndWhile_eq_self
  intro c hc
  exact isBlank_of_getLast?_trim (by rw [ht, hc])

theorem head?_trim (t : Text) : t.trim.head? = t.skipBlanks.head? := by
  cases ht : t.trim with
  | nil =>
      have hskip : t.skipBlanks = [] :=
        List.dropWhile_eq_nil_iff.2 (List.all_eq_true.1 (trim_eq_nil_iff.1 ht))
      rw [hskip]
  | cons c r =>
      have hcut : t.trim ++ endWhile isBlank t.skipBlanks = t.skipBlanks :=
        dropEndWhile_append_endWhile isBlank t.skipBlanks
      rw [← hcut, ht]
      rfl

theorem trimEnd_append_right (hw : w.allBlank = true) (t : Text) :
    trimEnd (t ++ w) = trimEnd t := by
  rw [trimEnd, dropEndWhile_append, if_pos (dropEndWhile_eq_nil (List.all_eq_true.1 hw))]
  rfl

theorem trim_of_not_blank (h : ∀ c ∈ t, isBlank c = false) : t.trim = t :=
  trim_eq_self (fun c hc => h c (List.mem_of_head? hc)) fun c hc => h c (List.mem_of_getLast? hc)

theorem trim_enclosed {c d : Char} (hc : isBlank c = false) (hd : isBlank d = false)
    (inner : Text) : trim (c :: (inner ++ [d])) = c :: (inner ++ [d]) := by
  apply trim_eq_self
  · intro e he
    obtain rfl := Option.some.inj he
    exact hc
  · intro e he
    rw [← List.cons_append, List.getLast?_concat] at he
    obtain rfl := Option.some.inj he
    exact hd

theorem trim_append_right (hw : w.allBlank = true) (t : Text) : trim (t ++ w) = trim t := by
  induction w generalizing t with
  | nil => rw [List.append_nil]
  | cons c w ih =>
      obtain ⟨hc, hw⟩ : isBlank c = true ∧ allBlank w = true := by simpa [allBlank] using hw
      rw [List.append_cons, ih hw, trim_append hc]

theorem trim_surrounded {w' : Text} (hw : w.allBlank = true) (hw' : w'.allBlank = true)
    (ht : t.trim = t) : trim (w ++ t ++ w') = t := by
  rw [trim_append_right hw', trim_append_left hw, ht]

theorem trim_skipBlanks (t : Text) : t.skipBlanks.trim = t.trim := by
  have hcut : t.takeWhile isBlank ++ t.skipBlanks = t := List.takeWhile_append_dropWhile
  have hblank : allBlank (t.takeWhile isBlank) = true :=
    List.all_eq_true.2 fun _ => List.mem_takeWhile_imp
  rw [← trim_append_left hblank, hcut]

theorem trim_trimEnd (t : Text) : t.trimEnd.trim = t.trim := by
  have hblank : allBlank (endWhile isBlank t) = true :=
    List.all_eq_true.2 fun _ => mem_endWhile_imp
  rw [← trim_append_right hblank, trimEnd, dropEndWhile_append_endWhile]

/-- Around a character that is no blank, only the outer ends are trimmed. -/
theorem trim_append_cons (hc : isBlank c = false) (t u : Text) :
    trim (t ++ c :: u) = t.skipBlanks ++ c :: u.trimEnd := by
  have hskip : skipBlanks (t ++ c :: u) = t.skipBlanks ++ c :: u := by
    rw [skipBlanks, List.dropWhile_append]
    split
    · rename_i hnil
      have hblanks : t.skipBlanks = [] := List.isEmpty_iff.1 hnil
      rw [hblanks]
      exact skipBlanks_cons_of_not_blank hc u
    · rfl
  have hend : dropEndWhile isBlank (c :: u) = c :: u.trimEnd := by
    have happend := dropEndWhile_append isBlank [c] u
    have hself : dropEndWhile isBlank [c] = [c] := by simp [dropEndWhile, hc]
    rw [List.singleton_append, hself] at happend
    rw [happend, trimEnd]
    split
    · rename_i hnil
      rw [hnil]
    · rfl
  rw [trim, hskip, trimEnd, dropEndWhile_append, hend, if_neg (List.cons_ne_nil _ _)]

theorem trim_append_eq_self {front back : Text} (hne : front ≠ []) (hfront : front.trim = front)
    (hback : ∀ c, back.getLast? = some c → isBlank c = false) :
    trim (front ++ back) = front ++ back := by
  apply trim_eq_self
  · intro c hc
    obtain ⟨d, r, rfl⟩ := List.exists_cons_of_ne_nil hne
    obtain rfl : d = c := Option.some.inj hc
    exact isBlank_of_head?_trim (by rw [hfront]; rfl)
  · intro c hc
    by_cases hnil : back = []
    · rw [hnil, List.append_nil, ← hfront] at hc
      exact isBlank_of_getLast?_trim hc
    · rw [getLast?_append_left hnil] at hc
      exact hback c hc

theorem trim_append_of_not_blank {q r : Text} (hq : q.allBlank = false)
    (hr : r.allBlank = false) : trim (q ++ r) = q.skipBlanks ++ r.takeWhile isBlank ++ trim r := by
  have hskip : skipBlanks (q ++ r) = skipBlanks q ++ r := by
    rw [skipBlanks, List.dropWhile_append, if_neg]
    · rfl
    · rw [List.isEmpty_iff, List.dropWhile_eq_nil_iff, ← List.all_eq_true]
      simpa [allBlank] using hq
  have hcut : r = r.takeWhile isBlank ++ skipBlanks r := List.takeWhile_append_dropWhile.symm
  have hne : dropEndWhile isBlank (skipBlanks r) ≠ [] := by
    intro hnil
    rw [trim_eq_nil_iff.1 hnil] at hr
    cases hr
  calc trim (q ++ r) = trimEnd (skipBlanks q ++ r.takeWhile isBlank ++ skipBlanks r) := by
        rw [trim, hskip, List.append_assoc, ← hcut]
    _ = q.skipBlanks ++ r.takeWhile isBlank ++ trim r := by
        rw [trimEnd, dropEndWhile_append, if_neg hne]
        rfl

end SoloCall.Text
