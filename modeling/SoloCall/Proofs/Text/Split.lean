import SoloCall.Text.Basic

namespace SoloCall.Text

theorem split_of_not_mem {sep : Char} {t : Text} (h : sep ∉ t) : split sep t = [t] := by
  induction t with
  | nil => rfl
  | cons c r ih =>
      obtain ⟨hc, hr⟩ : sep ≠ c ∧ sep ∉ r := by simpa using h
      rw [split_cons_of_ne (Ne.symm hc), ih hr]

theorem split_append_cons (sep : Char) (t r : Text) :
    split sep (t ++ sep :: r) = split sep t ++ split sep r := by
  induction t with
  | nil => exact split_cons_sep sep r
  | cons c t ih =>
      by_cases hc : c = sep
      · subst hc
        rw [List.cons_append, split_cons_sep, split_cons_sep, ih, List.cons_append]
      · rw [List.cons_append, split_cons_of_ne hc, split_cons_of_ne hc, ih]
        cases hs : split sep t with
        | nil => exact absurd hs (split_ne_nil sep t)
        | cons first rest => rfl

theorem split_append_sep {sep : Char} {t : Text} (h : sep ∉ t) (r : Text) :
    split sep (t ++ sep :: r) = t :: split sep r := by
  rw [split_append_cons, split_of_not_mem h, List.singleton_append]

theorem not_mem_of_mem_split {sep : Char} {t piece : Text} (h : piece ∈ split sep t) :
    sep ∉ piece := by
  induction t generalizing piece with
  | nil => simp_all [split_nil]
  | cons c r ih =>
      by_cases hc : c = sep
      · subst hc
        rw [split_cons_sep, List.mem_cons] at h
        rcases h with rfl | h
        · simp
        · exact ih h
      · rw [split_cons_of_ne hc] at h
        cases hs : split sep r with
        | nil => exact absurd hs (split_ne_nil sep r)
        | cons first rest =>
            simp only [hs, List.mem_cons] at h
            rcases h with rfl | h
            · have hf : sep ∉ first := ih (by simp [hs])
              simp [hf, Ne.symm hc]
            · exact ih (by simp [hs, h])

theorem mem_of_mem_split {sep c : Char} {t piece : Text} (h : piece ∈ split sep t)
    (hc : c ∈ piece) : c ∈ t := by
  induction t generalizing piece with
  | nil => simp_all [split_nil]
  | cons d r ih =>
      by_cases hd : d = sep
      · subst hd
        rw [split_cons_sep, List.mem_cons] at h
        rcases h with rfl | h
        · simp at hc
        · exact List.mem_cons_of_mem _ (ih h hc)
      · rw [split_cons_of_ne hd] at h
        cases hs : split sep r with
        | nil => exact absurd hs (split_ne_nil sep r)
        | cons first rest =>
            simp only [hs, List.mem_cons] at h
            rcases h with rfl | h
            · rcases List.mem_cons.1 hc with rfl | hf
              · exact List.mem_cons_self
              · exact List.mem_cons_of_mem _ (ih (by simp [hs]) hf)
            · exact List.mem_cons_of_mem _ (ih (by simp [hs, h]) hc)

/-- Pieces that hold no separator are found again where they were joined. -/
theorem split_join {sep : Char} {pieces : List Text} (hne : pieces ≠ [])
    (h : ∀ piece ∈ pieces, sep ∉ piece) : split sep (join [sep] pieces) = pieces := by
  induction pieces with
  | nil => exact absurd rfl hne
  | cons piece rest ih =>
      have hp : sep ∉ piece := h piece (by simp)
      cases rest with
      | nil => exact split_of_not_mem hp
      | cons next rest =>
          rw [join_cons_cons, List.append_assoc, List.singleton_append, split_append_sep hp,
            ih (by simp) fun p m => h p (List.mem_cons_of_mem _ m)]

theorem split_lines {sep : Char} {lines : List Text} (h : ∀ line ∈ lines, sep ∉ line) :
    split sep (lines.flatMap fun line => line ++ [sep]) = lines ++ [[]] := by
  induction lines with
  | nil => rfl
  | cons line lines ih =>
      obtain ⟨hline, hlines⟩ := List.forall_mem_cons.1 h
      rw [List.flatMap_cons, List.append_assoc, List.singleton_append, split_append_sep hline,
        ih hlines, List.cons_append]

theorem mem_of_mem_join {sep : Text} {c : Char} {pieces : List Text} (h : c ∈ join sep pieces) :
    c ∈ sep ∨ ∃ piece ∈ pieces, c ∈ piece := by
  induction pieces with
  | nil => cases h
  | cons piece rest ih =>
      cases rest with
      | nil => exact Or.inr ⟨piece, List.mem_cons_self, h⟩
      | cons next rest =>
          rw [join_cons_cons, List.mem_append, List.mem_append] at h
          rcases h with (hp | hs) | hr
          · exact Or.inr ⟨piece, List.mem_cons_self, hp⟩
          · exact Or.inl hs
          · exact (ih hr).imp_right fun ⟨p, hp, hc⟩ => ⟨p, List.mem_cons_of_mem _ hp, hc⟩

theorem join_ne_nil {sep piece : Text} (h : piece ≠ []) (rest : List Text) :
    join sep (piece :: rest) ≠ [] := by
  cases rest <;> simp [join, h]

theorem dropEndWhile_eq_self {p : Char → Bool} {t : Text}
    (h : ∀ c, t.getLast? = some c → p c = false) : dropEndWhile p t = t := by
  rcases List.eq_nil_or_concat t with rfl | ⟨front, c, rfl⟩
  · rfl
  · have hc := h c (by simp)
    simp [dropEndWhile, hc]

theorem takeWhile_dropWhile_append {p : Char → Bool} {t r : Text} (ht : ∀ c ∈ t, p c = true)
    (hr : ∀ c, r.head? = some c → p c = false) :
    (t ++ r).takeWhile p = t ∧ (t ++ r).dropWhile p = r := by
  rw [List.takeWhile_append_of_pos ht, List.dropWhile_append_of_pos ht]
  cases r with
  | nil => simp
  | cons c r => simp [hr c rfl]

/-- A run of characters behind one of another kind is the longest at the end. -/
theorem endWhile_append_of_getLast? {p : Char → Bool} {front t : Text}
    (hf : ∀ c, front.getLast? = some c → p c = false) (ht : ∀ c ∈ t, p c = true) :
    endWhile p (front ++ t) = t := by
  have hall : ∀ c ∈ t.reverse, p c = true := fun c hc => ht c (List.mem_reverse.1 hc)
  have hstop : front.reverse.takeWhile p = [] := by
    rcases List.eq_nil_or_concat front with rfl | ⟨init, c, rfl⟩
    · rfl
    · have hc : p c = false := hf c (by simp)
      simp [hc]
  rw [endWhile]
  rw [List.reverse_append, List.takeWhile_append_of_pos hall, hstop, List.append_nil,
    List.reverse_reverse]

theorem endWhile_append {sep : Char} {front t : Text} (ht : sep ∉ t)
    (hf : front = [] ∨ front.getLast? = some sep) : endWhile (· ≠ sep) (front ++ t) = t := by
  apply endWhile_append_of_getLast?
  · intro c hc
    rcases hf with rfl | hl
    · cases hc
    · obtain rfl := Option.some.inj (hl.symm.trans hc)
      simp
  · intro c hc
    simpa using fun he : c = sep => ht (he ▸ hc)

end SoloCall.Text
