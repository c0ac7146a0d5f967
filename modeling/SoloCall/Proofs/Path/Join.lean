import SoloCall.Path
import SoloCall.Proofs.Text.Split

namespace SoloCall.Path

/-- A name that stands for an entry of a directory, and for nothing else. -/
structure IsName (name : Text) : Prop where
  ne_nil : name ≠ []
  not_mem : '/' ∉ name
  ne_dot : name ≠ ['.']
  ne_dots : name ≠ ['.', '.']

variable {home name : Text}

theorem IsName.not_isTrivial (h : IsName name) : isTrivial name = false := by
  simp [isTrivial, h.ne_nil, h.ne_dot]

theorem IsName.not_isAbsolute (h : IsName name) : isAbsolute name = false := by
  cases name with
  | nil => rfl
  | cons c r =>
      have hc : c ≠ '/' := by
        rintro rfl
        exact h.not_mem List.mem_cons_self
      simp [isAbsolute, hc]

theorem IsName.getLast?_ne (h : IsName name) (front : Text) :
    (front ++ name).getLast? ≠ some '/' := by
  rcases List.eq_nil_or_concat name with rfl | ⟨init, c, rfl⟩
  · exact absurd rfl h.ne_nil
  · have hc : c ≠ '/' := by
      rintro rfl
      exact h.not_mem (by simp)
    simpa [← List.append_assoc] using hc

theorem join_name (h : IsName name) (home : Path) :
    join home name = if home.isEmpty || home.getLast? = some '/' then home ++ name
      else home ++ '/' :: name := by
  simp [join, h.not_isAbsolute]

theorem join_of_isAbsolute {q : Path} (h : isAbsolute q = true) (p : Path) : join p q = q := if_pos h

theorem exists_join_name (h : IsName name) (home : Path) :
    ∃ front, join home name = front ++ name ∧ (front = [] ∨ front.getLast? = some '/') := by
  rw [join_name h]
  split
  · rename_i hc
    rcases Bool.or_eq_true _ _ ▸ hc with he | hl
    · exact ⟨home, rfl, .inl (List.isEmpty_iff.1 he)⟩
    · exact ⟨home, rfl, .inr (by simpa using hl)⟩
  · exact ⟨home ++ ['/'], by simp, .inr (by simp)⟩

/-- The pieces of a path to a name are those of the path before it, but for empty ones at its end,
and the name. -/
theorem exists_split_join (h : IsName name) (home : Path) :
    ∃ init final, Text.split '/' (join home name) = init ++ [name] ∧
      Text.split '/' home ++ [[]] = init ++ [] :: final ∧ ∀ piece ∈ final, piece = [] := by
  have hname := Text.split_of_not_mem h.not_mem
  rw [join_name h]
  split
  · rename_i hc
    rcases List.eq_nil_or_concat home with rfl | ⟨front, c, rfl⟩
    · exact ⟨[], [[]], hname, rfl, by simp⟩
    · obtain rfl : c = '/' := by simpa using hc
      rw [List.concat_eq_append]
      have hfront : Text.split '/' (front ++ ['/']) = Text.split '/' front ++ [[]] :=
        Text.split_append_cons '/' front []
      refine ⟨Text.split '/' front, [[]], ?_, ?_, by simp⟩
      · rw [List.append_assoc, List.singleton_append, Text.split_append_cons, hname]
      · rw [hfront, List.append_assoc, List.singleton_append]
  · exact ⟨Text.split '/' home, [], by rw [Text.split_append_cons, hname], rfl, by simp⟩

theorem getLast?_join_ne (h : IsName name) (home : Path) :
    (join home name).getLast? ≠ some '/' := by
  obtain ⟨front, hj, -⟩ := exists_join_name h home
  rw [hj]
  exact h.getLast?_ne front

theorem join_ne_nil (h : IsName name) (home : Path) : join home name ≠ [] := by
  obtain ⟨front, hj, -⟩ := exists_join_name h home
  simp [hj, h.ne_nil]

theorem isAbsolute_join (h : IsName name) (home : Path) :
    isAbsolute (join home name) = isAbsolute home := by
  cases home with
  | nil => rw [join_name h]; exact h.not_isAbsolute
  | cons c r =>
      rw [join_name h]
      split <;> rfl

theorem dropEndWhile_join (h : IsName name) (home : Path) :
    Text.dropEndWhile (· = '/') (join home name) = join home name := by
  apply Text.dropEndWhile_eq_self
  intro c hc
  have hne : c ≠ '/' := by
    rintro rfl
    exact getLast?_join_ne h home hc
  simp [hne]

theorem cutName_join (h : IsName name) (home : Path) : (cutName (join home name)).2 = name := by
  obtain ⟨front, hj, hf⟩ := exists_join_name h home
  simp only [cutName]
  rw [dropEndWhile_join h, hj]
  exact Text.endWhile_append h.not_mem hf

theorem cutName_of_not_mem (h : '/' ∉ name) : (cutName name).2 = name := by
  have hbare : Text.dropEndWhile (· = '/') name = name := by
    apply Text.dropEndWhile_eq_self
    intro c hc
    have hne : c ≠ '/' := by
      rintro rfl
      exact h (List.mem_of_getLast? hc)
    simp [hne]
  simp only [cutName]
  rw [hbare]
  exact Text.endWhile_append h (.inl rfl)

theorem IsName.anchorLength_eq (h : IsName name) : anchorLength name = 0 := by
  have hslash := h.not_mem
  have hdot := h.ne_dot
  unfold anchorLength
  split <;> simp_all

theorem anchorLength_le_one (p : Path) : anchorLength p ≤ 1 := by
  unfold anchorLength
  split <;> decide

/-- The anchor of a path lies before its first slash or is that slash. -/
theorem exists_split_drop_anchor (front rest : Text) :
    ∃ before, Text.split '/' ((front ++ '/' :: rest).drop (anchorLength (front ++ '/' :: rest))) =
      before ++ Text.split '/' rest := by
  have hanchor := anchorLength_le_one (front ++ '/' :: rest)
  cases hd : anchorLength (front ++ '/' :: rest) with
  | zero => exact ⟨Text.split '/' front, Text.split_append_cons '/' front rest⟩
  | succ n =>
      obtain rfl : n = 0 := by omega
      cases front with
      | nil => exact ⟨[], rfl⟩
      | cons c front => exact ⟨Text.split '/' front, Text.split_append_cons '/' front rest⟩

theorem split_drop_anchor {front : Path} (h : IsName name)
    (hf : front = [] ∨ front.getLast? = some '/') : ∃ before,
      Text.split '/' ((front ++ name).drop (anchorLength (front ++ name))) = before ++ [name] := by
  have hname : Text.split '/' name = [name] := Text.split_of_not_mem h.not_mem
  rcases hf with rfl | hl
  · exact ⟨[], by rw [List.nil_append, h.anchorLength_eq, List.drop_zero, hname, List.nil_append]⟩
  · obtain ⟨init, rfl⟩ := List.getLast?_eq_some_iff.1 hl
    obtain ⟨before, hbefore⟩ := exists_split_drop_anchor init name
    rw [hname, List.append_cons] at hbefore
    exact ⟨before, hbefore⟩

theorem fileName?_of_split {path : Path} {before final : List Text} (h : IsName name)
    (hsplit : Text.split '/' (path.drop (anchorLength path)) = before ++ name :: final)
    (hfinal : ∀ piece ∈ final, isTrivial piece = true) : fileName? path = some name := by
  have hpieces : pieces path = before ++ [name] := by
    rw [pieces, hsplit, List.reverse_append, List.reverse_cons, List.append_assoc,
      List.dropWhile_append_of_pos (by simpa using hfinal)]
    simp [h.not_isTrivial]
  simp [fileName?, hpieces, h.ne_dots]

theorem fileName?_join (h : IsName name) (home : Path) : fileName? (join home name) = some name := by
  obtain ⟨front, hj, hf⟩ := exists_join_name h home
  obtain ⟨before, hbefore⟩ := split_drop_anchor h hf
  rw [hj]
  exact fileName?_of_split h hbefore (by simp)

theorem IsName.fileName?_eq (h : IsName name) : fileName? name = some name := by
  obtain ⟨before, hbefore⟩ := split_drop_anchor h (.inl rfl)
  exact fileName?_of_split h hbefore (by simp)

end SoloCall.Path
