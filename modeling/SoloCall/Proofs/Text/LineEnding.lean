import SoloCall.Proofs.Text.Split

namespace SoloCall.Text

def crlf (t : Text) : Text := replaceAll ['\n'] ['\r', '\n'] t

def withReturns : List Text → List Text
  | [] => []
  | [last] => [last]
  | line :: next :: rest => (line ++ ['\r']) :: withReturns (next :: rest)

theorem crlf_cons (c : Char) (t : Text) :
    crlf (c :: t) = (if c = '\n' then ['\r', '\n'] else [c]) ++ crlf t := by
  by_cases hc : c = '\n'
  · subst hc
    rfl
  · simp [crlf, replaceAll, replaceFrom, startsWith, after?, hc, Ne.symm hc]

theorem crlf_append (s t : Text) : crlf (s ++ t) = crlf s ++ crlf t := by
  induction s with
  | nil => rfl
  | cons c s ih => rw [List.cons_append, crlf_cons, crlf_cons, ih, List.append_assoc]

theorem crlf_of_not_mem {t : Text} (h : '\n' ∉ t) : crlf t = t := by
  induction t with
  | nil => rfl
  | cons c t ih =>
      obtain ⟨hc, ht⟩ : '\n' ≠ c ∧ '\n' ∉ t := by simpa using h
      rw [crlf_cons, if_neg (Ne.symm hc), ih ht, List.singleton_append]

theorem exists_withReturns_cons (line : Text) (rest : List Text) :
    ∃ first others, withReturns (line :: rest) = first :: others := by
  cases rest with
  | nil => exact ⟨line, [], rfl⟩
  | cons next rest => exact ⟨line ++ ['\r'], withReturns (next :: rest), rfl⟩

theorem crlf_join {lines : List Text} (h : ∀ line ∈ lines, '\n' ∉ line) :
    crlf (join ['\n'] lines) = join ['\n'] (withReturns lines) := by
  induction lines with
  | nil => rfl
  | cons line rest ih =>
      have hline := crlf_of_not_mem (h line List.mem_cons_self)
      have hrest := ih fun l hl => h l (List.mem_cons_of_mem _ hl)
      cases rest with
      | nil => exact hline
      | cons next rest =>
          obtain ⟨first, others, hreturns⟩ := exists_withReturns_cons next rest
          have hbreak : crlf ['\n'] = ['\r'] ++ ['\n'] := rfl
          rw [join_cons_cons, crlf_append, crlf_append, hline, hrest, hbreak, withReturns, hreturns,
            join_cons_cons, List.append_assoc line ['\r']]

theorem eq_or_eq_append_of_getElem? {lines : List Text} {i : Nat} {line line' : Text}
    (hl : lines[i]? = some line) (hl' : (withReturns lines)[i]? = some line') :
    line' = line ∨ line' = line ++ ['\r'] := by
  induction lines generalizing i with
  | nil => cases hl
  | cons first rest ih =>
      cases rest with
      | nil => exact Or.inl (Option.some.inj (hl'.symm.trans hl))
      | cons next rest =>
          cases i with
          | zero =>
              obtain rfl : first = line := Option.some.inj hl
              exact Or.inr (Option.some.inj hl').symm
          | succ i => exact ih (by simpa using hl) (by simpa [withReturns] using hl')

theorem length_withReturns (lines : List Text) : (withReturns lines).length = lines.length := by
  induction lines with
  | nil => rfl
  | cons line rest ih =>
      cases rest with
      | nil => rfl
      | cons next rest =>
          rw [withReturns, List.length_cons, ih]
          rfl

theorem not_mem_of_mem_withReturns {lines : List Text} (h : ∀ line ∈ lines, '\n' ∉ line) :
    ∀ line ∈ withReturns lines, '\n' ∉ line := by
  intro line' hl'
  obtain ⟨i, hi⟩ := List.getElem?_of_mem hl'
  have hlt : i < lines.length := by
    rw [← length_withReturns]
    exact (List.getElem?_eq_some_iff.1 hi).1
  have hl := List.getElem?_eq_getElem hlt
  have hn := h _ (List.getElem_mem hlt)
  rcases eq_or_eq_append_of_getElem? hl hi with rfl | rfl
  · exact hn
  · simpa using hn

theorem split_crlf (t : Text) : split '\n' (crlf t) = withReturns (split '\n' t) := by
  have hlines : ∀ line ∈ split '\n' t, '\n' ∉ line := fun _ => not_mem_of_mem_split
  have hne : withReturns (split '\n' t) ≠ [] := by
    rw [← List.length_pos_iff, length_withReturns, List.length_pos_iff]
    exact split_ne_nil '\n' t
  calc split '\n' (crlf t)
      = split '\n' (crlf (join ['\n'] (split '\n' t))) := by rw [join_split]
    _ = split '\n' (join ['\n'] (withReturns (split '\n' t))) := by rw [crlf_join hlines]
    _ = withReturns (split '\n' t) := split_join hne (not_mem_of_mem_withReturns hlines)

theorem drop_withReturns (lines : List Text) (k : Nat) :
    (withReturns lines).drop k = withReturns (lines.drop k) := by
  induction lines generalizing k with
  | nil => simp [withReturns]
  | cons line rest ih =>
      cases k with
      | zero => rfl
      | succ k =>
          cases rest with
          | nil => simp [withReturns]
          | cons next rest => exact ih k

/-- The first lines of a text with such line endings: of the last of them, the carriage return is
left over, unless it is the last line of the text. -/
theorem join_take_withReturns (lines : List Text) (k : Nat) :
    join ['\n'] ((withReturns lines).take (k + 1)) =
      join ['\n'] (withReturns (lines.take (k + 1))) ++
        if k + 1 < lines.length then ['\r'] else [] := by
  induction lines generalizing k with
  | nil => rfl
  | cons line rest ih =>
      cases rest with
      | nil => simp [withReturns, join]
      | cons next rest =>
          cases k with
          | zero => simp [withReturns, join]
          | succ k =>
              obtain ⟨first, others, hreturns⟩ := exists_withReturns_cons next (rest.take k)
              obtain ⟨first', others', hreturns'⟩ := exists_withReturns_cons next rest
              have hk := ih k
              rw [hreturns', List.take_succ_cons, List.take_succ_cons, hreturns] at hk
              rw [withReturns, hreturns', List.take_succ_cons, List.take_succ_cons, join_cons_cons,
                hk, List.take_succ_cons, List.take_succ_cons, withReturns, hreturns, join_cons_cons]
              simp

end SoloCall.Text
