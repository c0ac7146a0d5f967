import SoloCall.Outcome

namespace SoloCall.Outcome

open Json

/-- The line is one of a standard output, it holds a report, and no line after it does. -/
def IsLastReport (output line : Text) : Prop :=
  ∃ before after, output.split '\n' = before ++ line :: after ∧
    (ofLine? line).isSome ∧ ∀ later ∈ after, ofLine? later = none

def SaysSuccess (line text : Text) : Prop :=
  ∃ tree result? error? value?, Json.parse? line.trim = some tree ∧
    tree.fields? ["success".toList, "result".toList, "error".toList] =
      some [some (.bool true), result?, error?] ∧
    Tree.optional? (Tree.value? reportDepth) result? = some value? ∧
    text = (value?.bind valueText?).getD []

variable {output line text : Text} {tree : Tree}

theorem ofTree?_eq_success (h : ofTree? tree = some (.success text)) :
    ∃ result? error? value?,
      tree.fields? ["success".toList, "result".toList, "error".toList] =
        some [some (.bool true), result?, error?] ∧
      Tree.optional? (Tree.value? reportDepth) result? = some value? ∧
      text = (value?.bind valueText?).getD [] := by
  rw [ofTree?] at h
  obtain ⟨fields, hfields, h⟩ := Option.bind_eq_some_iff.1 h
  split at h
  case h_2 => cases h
  case h_1 succeeded result? error? =>
    obtain ⟨value?, hvalue, h⟩ := Option.bind_eq_some_iff.1 h
    obtain ⟨_, _, h⟩ := Option.bind_eq_some_iff.1 h
    cases succeeded with
    | false => simp at h
    | true =>
        have htext : (value?.bind valueText?).getD [] = text := by simpa using h
        exact ⟨result?, error?, value?, hfields, hvalue, htext.symm⟩

theorem ofLine?_eq_success (h : ofLine? line = some (.success text)) : SaysSuccess line text := by
  rw [ofLine?] at h
  split at h
  · obtain ⟨tree, hparse, htree⟩ := Option.bind_eq_some_iff.1 h
    obtain ⟨result?, error?, value?, hsuccess⟩ := ofTree?_eq_success htree
    exact ⟨tree, result?, error?, value?, hparse, hsuccess⟩
  · cases h

theorem ofOutput_eq_success (h : ofOutput output = .success text) :
    ∃ line, IsLastReport output line ∧ SaysSuccess line text := by
  rw [ofOutput] at h
  split at h
  · rename_i found hfound
    subst h
    obtain ⟨after, line, before, hlines, hline, hafter⟩ := List.findSome?_eq_some_iff.1 hfound
    have hsplit : output.split '\n' = before.reverse ++ line :: after.reverse := by
      simpa using congrArg List.reverse hlines
    refine ⟨line, ⟨before.reverse, after.reverse, hsplit, by simp [hline], ?_⟩,
      ofLine?_eq_success hline⟩
    simpa using hafter
  · split at h <;> cases h

end SoloCall.Outcome
