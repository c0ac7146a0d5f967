import SoloCall.Proofs.Header.LeadingBlanks
import SoloCall.Proofs.Record.Likeness

namespace SoloCall

theorem Header.recognise?_append_left {w : Text} (hw : w.allBlank = true) (language : Language)
    (line : Text) : recognise? language (w ++ line) =
      (recognise? language line).map (shifted language w.length) := by
  have hbraces (hb : language.usesBraces = true) : shifted language w.length = id := by
    funext header
    simp [shifted, hb]
  cases language with
  | python => exact suite?_append_left hw line
  | unknown => exact suite?_append_left hw line
  | java => rw [hbraces rfl, Option.map_id, id]; exact member?_append_left hw line
  | go => rw [hbraces rfl, Option.map_id, id]; exact func?_append_left hw line
  | c => rw [hbraces rfl, Option.map_id, id]; exact declarator?_append_left hw line
  | cpp => rw [hbraces rfl, Option.map_id, id]; exact declarator?_append_left hw line
  | javascript => rw [hbraces rfl, Option.map_id, id]; exact script?_append_left hw line
  | typescript => rw [hbraces rfl, Option.map_id, id]; exact script?_append_left hw line

namespace FunctionRecord

variable {w : Text} {lines : List Text}

theorem SameLine.append_left (hw : w.allBlank = true) (language : Language) (line : Text) :
    SameLine language w.length line (w ++ line) where
  header := Header.recognise?_append_left hw language line
  trim := Text.trim_append_left hw line
  opening := by
    rw [List.count_append, List.count_eq_zero.2 (Text.not_mem_of_allBlank hw rfl), Nat.zero_add]
  closing := by
    rw [List.count_append, List.count_eq_zero.2 (Text.not_mem_of_allBlank hw rfl), Nat.zero_add]
  blank := Text.allBlank_append_left hw line
  indent _ := Text.indent_append_left hw line

theorem likewise_indented (hw : w.allBlank = true) (language : Language) (n : Nat)
    (records : List FunctionRecord) (lines : List Text) :
    Likewise language w.length n records lines (lines.map (w ++ ·)) where
  length_eq := List.length_map _
  line := by
    intro i line line' hl hl'
    left
    rw [List.getElem?_map, hl] at hl'
    obtain rfl : w ++ line = line' := Option.some.inj hl'
    exact .append_left hw language line

theorem codeAt_indented (hbreak : ∀ line ∈ lines, '\n' ∉ line) {first last : Nat}
    (hfirst : 1 ≤ first) (hle : first ≤ last) (hlast : last ≤ lines.length) (w : Text) :
    codeAt (lines.map (w ++ ·)) first last = (codeAt lines first last).indentBy w := by
  have hpart : ∀ line ∈ (lines.drop (first - 1)).take (last + 1 - first), '\n' ∉ line :=
    fun line hl => hbreak line (List.mem_of_mem_drop (List.mem_of_mem_take hl))
  have hne : (lines.drop (first - 1)).take (last + 1 - first) ≠ [] := by
    apply List.ne_nil_of_length_pos
    rw [List.length_take, List.length_drop]
    omega
  rw [codeAt, codeAt, Text.indentBy_join hne hpart, List.map_take, List.map_drop]

/-- Indented by the same blanks on every line, a source has the same records, and each code is
indented with it. -/
theorem extract_indentBy (language : Language) (source : Text) (hw : w.allBlank = true)
    (hn : '\n' ∉ w) : extract language (source.indentBy w) =
      (extract language source).map fun r => { r with code := r.code.indentBy w } := by
  have hbreak : ∀ line ∈ source.split '\n', '\n' ∉ line := fun _ => Text.not_mem_of_mem_split
  have hscan := scanned_scan language 1 (source.split '\n')
  have hstep := hscan.inStep hbreak (likewise_indented hw language 1 _ _)
  rw [extract, Text.split_indentBy hn, hstep.scan_eq]
  apply List.map_congr_left
  intro r hr
  have hend := hscan.lineEnd_lt r hr
  rw [codeAt_indented hbreak (hscan.first_le r hr) (hscan.lineStart_le_lineEnd r hr) (by omega),
    ← code_scan language _ r hr]

def topLevel : Text := "def f(a=1):\n  def g(b):\n\n    b\n \n\nx".toList

def rareBlanks : Text := "\t\u00A0\u2028".toList

def indentedFunction : FunctionRecord where
  name := "f".toList
  parameters := [⟨"a".toList, "any".toList, some "1".toList⟩]
  code := "\t\u00A0\u2028def f(a=1):\n\t\u00A0\u2028  def g(b):\n\t\u00A0\u2028\n\t\u00A0\u2028    b".toList
  lineStart := 1
  lineEnd := 4
  language := .python

theorem extract_indentBy_rareBlanks : rareBlanks.allBlank = true ∧ '\n' ∉ rareBlanks ∧
    extract .python (topLevel.indentBy rareBlanks) = [indentedFunction] := by
  have hw : rareBlanks.allBlank = true := by decide
  have hn : '\n' ∉ rareBlanks := by decide
  exact ⟨hw, hn, (extract_indentBy .python topLevel hw hn).trans (by decide +kernel)⟩

end FunctionRecord

end SoloCall
