import Mathlib.Data.Option.Basic
import SoloCall.Header.Recognise
import SoloCall.Proofs.Text.Indentation

namespace SoloCall

namespace Header

variable {w : Text}

theorem cut?_append_left (hw : w.allBlank = true) (line : Text) :
    cut? (w ++ line) = (cut? line).map fun k => { k with front := w ++ k.front } := by
  have hopen : '(' ∉ w := Text.not_mem_of_allBlank hw rfl
  simp only [cut?, Text.cut?_append_left hopen]
  cases Text.cut? '(' line with
  | none => rfl
  | some p =>
      simp only [Option.map_some, Option.bind_eq_bind, Option.bind_some]
      cases Text.cut? ')' p.2 <;> rfl

theorem ne_nil_of_plainWords? {t word : Text} {rest : List Text}
    (h : t.plainWords? = some (word :: rest)) : t ≠ [] := by
  rintro rfl
  cases h

theorem suite?_append_left (hw : w.allBlank = true) (line : Text) :
    suite? (w ++ line) =
      (suite? line).map fun header => { header with indent := header.indent + w.length } := by
  rw [suite?, suite?, cut?_append_left hw]
  cases cut? line with
  | none => rfl
  | some k =>
      simp only [Option.map_some, Option.bind_eq_bind, Option.bind_some,
        Text.plainWords?_append_left hw, Text.indent_append_left hw]
      cases k.front.plainWords? with
      | none => rfl
      | some words =>
          simp only [Option.bind_some]
          split
          · rw [Option.map_bind]
            rfl
          · rfl

theorem member?_append_left (hw : w.allBlank = true) (line : Text) :
    member? (w ++ line) = member? line := by
  rw [member?, member?, cut?_append_left hw]
  cases cut? line with
  | none => rfl
  | some k =>
      simp only [Option.map_some, Option.bind_eq_bind, Option.bind_some,
        Text.plainWords?_append_left hw]

theorem func?_append_left (hw : w.allBlank = true) (line : Text) :
    func? (w ++ line) = func? line := by
  rw [func?, func?, cut?_append_left hw]
  cases cut? line with
  | none => rfl
  | some k =>
      simp only [Option.map_some, Option.bind_eq_bind, Option.bind_some,
        Text.plainWords?_append_left hw]
      cases hp : k.front.plainWords? with
      | none => rfl
      | some words =>
          cases words with
          | nil => rfl
          | cons head rest =>
              -- The blank after the first word is looked for at the end, and that is no new one.
              rw [Text.getLast?_append_left (ne_nil_of_plainWords? hp) w]

/-- The words before a declared name, once trailing blanks and stars are taken away. Blanks in
front add none. -/
theorem specifiers_append_left (hw : w.allBlank = true) (before : Text) :
    ((w ++ before).dropEndWhile fun c => isBlank c || c = '*').plainWords? =
      (before.dropEndWhile fun c => isBlank c || c = '*').plainWords? := by
  have hnil : (w.dropEndWhile fun c => isBlank c || c = '*') = [] := by
    apply Text.dropEndWhile_eq_nil
    intro c hc
    rw [List.all_eq_true.1 hw c hc, Bool.true_or]
  rw [Text.dropEndWhile_append]
  split
  · rename_i hb
    rw [hb, hnil]
  · exact Text.plainWords?_append_left hw _

theorem declarator?_append_left (hw : w.allBlank = true) (line : Text) :
    declarator? (w ++ line) = declarator? line := by
  have hblank : ∀ c ∈ w, isBlank c = true := List.all_eq_true.1 hw
  have hword : ∀ c ∈ w, isWord c = false := fun c hc => Text.isWord_of_isBlank (hblank c hc)
  have hkeep : w.dropEndWhile isWord = w := by
    apply Text.dropEndWhile_eq_self
    intro c hc
    exact hword c (List.mem_of_getLast? hc)
  rw [declarator?, declarator?, cut?_append_left hw]
  cases cut? line with
  | none => rfl
  | some k =>
      simp only [Option.map_some, Option.bind_eq_bind, Option.bind_some]
      rw [Text.trimEnd, Text.trimEnd, Text.dropEndWhile_append]
      split
      · rename_i hfront
        rw [hfront, Text.dropEndWhile_eq_nil hblank]
      · rw [Text.endWhile_append_left hword, Text.dropEndWhile_append isWord, hkeep]
        split
        · rename_i hbefore
          rw [hbefore]
          have hnone : (w.dropEndWhile fun c => isBlank c || c = '*').plainWords? = some [] := by
            have hw' := specifiers_append_left hw []
            rwa [List.append_nil] at hw'
          have hfail : (guard False : Option Unit) = none := rfl
          simp [hnone, isSpecifierList, hfail, Option.bind_fun_none]
        · rename_i hbefore
          rw [Text.getLast?_append_left hbefore, specifiers_append_left hw]

theorem named?_append_left (hw : w.allBlank = true) (line : Text) :
    named? (w ++ line) = named? line := by
  rw [named?, named?, cut?_append_left hw]
  cases cut? line with
  | none => rfl
  | some k =>
      simp only [Option.map_some, Option.bind_eq_bind, Option.bind_some,
        Text.plainWords?_append_left hw]

theorem binding?_append_left (hw : w.allBlank = true) (line : Text) :
    binding? (w ++ line) = binding? line := by
  have hequals : '=' ∉ w := Text.not_mem_of_allBlank hw rfl
  rw [binding?, binding?, cut?_append_left hw]
  cases cut? line with
  | none => rfl
  | some k =>
      simp only [Option.map_some, Option.bind_eq_bind, Option.bind_some,
        Text.cut?_append_left hequals]
      cases Text.cut? '=' k.front with
      | none => rfl
      | some p =>
          simp only [Option.map_some, Option.bind_some, Text.plainWords?_append_left hw]

theorem shorthand?_append_left (hw : w.allBlank = true) (line : Text) :
    shorthand? (w ++ line) = shorthand? line := by
  rw [shorthand?, shorthand?, cut?_append_left hw]
  cases cut? line with
  | none => rfl
  | some k =>
      simp only [Option.map_some, Option.bind_eq_bind, Option.bind_some,
        Text.plainWords?_append_left hw]

theorem script?_append_left (hw : w.allBlank = true) (line : Text) :
    script? (w ++ line) = script? line := by
  rw [script?, script?, named?_append_left hw, binding?_append_left hw, shorthand?_append_left hw]

end Header

end SoloCall
