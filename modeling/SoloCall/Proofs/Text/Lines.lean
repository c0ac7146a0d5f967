import SoloCall.Proofs.Text.Words

namespace SoloCall.Text

variable {sep : Char} {p : Char → Bool} {above below t u w : Text}

def finished (t : Text) : Text := t.dropEndWhile (· ≠ '\n')

def unfinished (t : Text) : Text := t.endWhile (· ≠ '\n')

theorem finished_append_unfinished (t : Text) : t.finished ++ t.unfinished = t :=
  dropEndWhile_append_endWhile _ t

theorem not_mem_unfinished (t : Text) : '\n' ∉ t.unfinished := by
  intro h
  have hne := mem_endWhile_imp h
  simp at hne

theorem finished_cases (t : Text) : t.finished = [] ∨ ∃ front, t.finished = front ++ ['\n'] := by
  rcases List.eq_nil_or_concat t.finished with hnil | ⟨front, c, hf⟩
  · exact Or.inl hnil
  · have hlast : t.finished.getLast? = some c := by simp [hf]
    have hc : c = '\n' := by simpa using getLast?_dropEndWhile hlast
    exact Or.inr ⟨front, by rw [hf, hc, List.concat_eq_append]⟩

def lineAround (above below : Text) : Text := above.unfinished ++ below.takeWhile (· ≠ '\n')

theorem lineAround_mem_split (above below : Text) :
    lineAround above below ∈ split '\n' (above ++ below) := by
  have hline : '\n' ∉ lineAround above below := by
    rw [lineAround, List.mem_append, not_or]
    refine ⟨above.not_mem_unfinished, fun h => ?_⟩
    have hne := List.mem_takeWhile_imp h
    simp at hne
  have hbelow : lineAround above below ∈ split '\n' (above.unfinished ++ below) := by
    have hcut : above.unfinished ++ below =
        lineAround above below ++ below.dropWhile (· ≠ '\n') := by
      rw [lineAround, List.append_assoc, List.takeWhile_append_dropWhile]
    rw [hcut]
    cases hd : below.dropWhile (· ≠ '\n') with
    | nil => simp [split_of_not_mem hline]
    | cons c rest =>
        have hc : c = '\n' := by
          have hstop := List.head?_dropWhile_not (fun c => decide (c ≠ '\n')) below
          rw [hd] at hstop
          simpa using hstop
        rw [hc, split_append_sep hline]
        exact List.mem_cons_self
  rw [← above.finished_append_unfinished, List.append_assoc, finished_append_unfinished]
  rcases above.finished_cases with hf | ⟨front, hf⟩
  · rwa [hf, List.nil_append]
  · rw [hf, List.append_assoc, List.singleton_append, split_append_cons]
    exact List.mem_append_right _ hbelow

/-- Behind a line break or nothing, what is unfinished does not reach further back. -/
theorem unfinished_append (hu : u = [] ∨ u.getLast? = some '\n') (w : Text) :
    unfinished (u ++ w) = unfinished w := by
  have hstop : u.reverse.takeWhile (fun c => decide (c ≠ '\n')) = [] := by
    rcases hu with rfl | hl
    · rfl
    · obtain ⟨init, rfl⟩ := List.getLast?_eq_some_iff.1 hl
      simp
  rw [unfinished, unfinished, endWhile, endWhile, List.reverse_append, List.takeWhile_append, hstop,
    List.append_nil]
  split
  · rename_i hall
    rw [(List.takeWhile_prefix _).eq_of_length hall]
  · rfl

theorem allBlank_unfinished (h : w.allBlank = true) : w.unfinished.allBlank = true := by
  refine List.all_eq_true.2 fun c hc => List.all_eq_true.1 h c ?_
  rw [← w.finished_append_unfinished]
  exact List.mem_append_right _ hc

theorem dropEndWhile_append_of_all (hw : ∀ c ∈ w, p c = true) (u : Text) :
    dropEndWhile p (u ++ w) = dropEndWhile p u := by
  rw [dropEndWhile_append, if_pos (dropEndWhile_eq_nil hw)]

end SoloCall.Text
