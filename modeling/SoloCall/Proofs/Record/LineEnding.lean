import SoloCall.Proofs.Header.TrailingBlank
import SoloCall.Proofs.Record.Likeness
import SoloCall.Proofs.Text.LineEnding

namespace SoloCall

namespace FunctionRecord

variable {lines : List Text}

theorem SameLine.append_blank (language : Language) (line : Text) {c : Char}
    (hc : isBlank c = true) (hw : isWord c = false) :
    SameLine language 0 line (line ++ [c]) where
  header := by rw [Header.recognise?_append hc hw, Header.shifted_zero, Option.map_id, id]
  trim := Text.trim_append hc line
  opening := by
    have hn : c ≠ '{' := by rintro rfl; cases hc
    simp [List.count_append, hn]
  closing := by
    have hn : c ≠ '}' := by rintro rfl; cases hc
    simp [List.count_append, hn]
  blank := Text.allBlank_append hc line
  indent hl := Text.indent_append hl c

theorem likewise_withReturns (language : Language) (n : Nat) (records : List FunctionRecord)
    (lines : List Text) : Likewise language 0 n records lines (Text.withReturns lines) where
  length_eq := Text.length_withReturns lines
  line := by
    intro i line line' hl hl'
    left
    rcases Text.eq_or_eq_append_of_getElem? hl hl' with rfl | rfl
    · exact .refl language line'
    · exact .append_blank language line rfl rfl

theorem codeAt_withReturns (hbreak : ∀ line ∈ lines, '\n' ∉ line) {first last : Nat}
    (hfirst : 1 ≤ first) (hle : first ≤ last) (hlast : last ≤ lines.length) :
    codeAt (Text.withReturns lines) first last =
      (codeAt lines first last).crlf ++ if last = lines.length then [] else ['\r'] := by
  obtain ⟨k, hk⟩ : ∃ k, last + 1 - first = k + 1 := ⟨last - first, by omega⟩
  have hpart : ∀ line ∈ (lines.drop (first - 1)).take (k + 1), '\n' ∉ line := fun line hl =>
    hbreak line (List.mem_of_mem_drop (List.mem_of_mem_take hl))
  rw [codeAt, codeAt, hk, Text.crlf_join hpart, Text.drop_withReturns, Text.join_take_withReturns,
    List.length_drop]
  congr 1
  by_cases hend : last = lines.length
  · rw [if_pos hend, if_neg (by omega)]
  · rw [if_neg hend, if_pos (by omega)]

/-- With a carriage return before each line break, a source has the same records, and each code ends
its lines in the same way. A record that does not end with the source keeps the carriage return of
its last line. -/
theorem extract_crlf (language : Language) (source : Text) :
    extract language source.crlf = (extract language source).map fun r =>
      { r with code := r.code.crlf ++
          if r.lineEnd = (source.split '\n').length then [] else ['\r'] } := by
  have hbreak : ∀ line ∈ source.split '\n', '\n' ∉ line := fun _ => Text.not_mem_of_mem_split
  have hscan := scanned_scan language 1 (source.split '\n')
  have hstep := hscan.inStep hbreak (likewise_withReturns language 1 _ _)
  rw [extract, Text.split_crlf, hstep.scan_eq]
  refine List.map_congr_left fun r hr => ?_
  have hend := hscan.lineEnd_lt r hr
  rw [codeAt_withReturns hbreak (hscan.first_le r hr) (hscan.lineStart_le_lineEnd r hr) (by omega),
    ← code_scan language _ r hr]

example : extract .python "def f():\r\n  return 1\r\n\r\nx".toList =
    [⟨"f".toList, [], "def f():\r\n  return 1\r".toList, 1, 2, .python⟩] := by decide

end FunctionRecord

end SoloCall
