import Mathlib.Data.List.DropRight
import Mathlib.Data.Option.Basic
import SoloCall.Record.Extract

namespace SoloCall

theorem Header.cut?_eq_none_of_not_mem {line : Text} (h : '(' ∉ line) : cut? line = none := by
  cases hk : cut? line with
  | none => rfl
  | some k =>
      obtain ⟨hl, -, -⟩ := cut?_eq_some hk
      exact absurd (by rw [hl]; simp) h

theorem Header.recognise?_eq_none_of_not_mem (language : Language) {line : Text}
    (h : '(' ∉ line) : recognise? language line = none := by
  have hk := cut?_eq_none_of_not_mem h
  cases language <;>
    simp [recognise?, suite?, member?, func?, declarator?, script?, named?, binding?, shorthand?, hk]

theorem Header.recognise?_eq_none_of_allBlank (language : Language) {line : Text}
    (h : line.allBlank = true) : recognise? language line = none := by
  apply recognise?_eq_none_of_not_mem
  intro hp
  have hb := List.all_eq_true.1 h '(' hp
  exact absurd hb (by decide)

namespace FunctionRecord

variable {language : Language} {header : Header} {line : Text} {lines below : List Text}
  {records : List FunctionRecord} {n : Nat}

theorem linesToClose_le (depth : Int) (lines : List Text) :
    linesToClose depth lines ≤ lines.length := by
  induction lines generalizing depth with
  | nil => exact Nat.le_refl 0
  | cons line rest ih =>
      have h := ih (depth + braceBalance line)
      simp only [linesToClose, List.length_cons]
      split <;> omega

theorem indentSpan_kept (indent : Nat) (below : List Text) :
    (indentSpan indent below).kept =
      ((below.takeWhile (isDeeper indent)).rdropWhile Text.allBlank).length := by
  simp [indentSpan, List.rdropWhile]

theorem bodySpan_kept_le_passed (language : Language) (header : Header) (line : Text)
    (below : List Text) :
    (bodySpan language header line below).kept ≤ (bodySpan language header line below).passed := by
  rw [bodySpan]
  split
  · exact Nat.le_refl _
  · rw [indentSpan_kept]
    exact (List.rdropWhile_prefix _ _).length_le

theorem bodySpan_passed_le (language : Language) (header : Header) (line : Text)
    (below : List Text) : (bodySpan language header line below).passed ≤ below.length := by
  rw [bodySpan]
  split
  · simp only [braceSpan]
    split
    · exact linesToClose_le 1 below
    · cases below with
      | nil => exact Nat.le_refl 0
      | cons next rest =>
          have h := linesToClose_le 1 rest
          simp only [List.length_cons]
          split <;> omega
  · exact (List.takeWhile_prefix _).length_le

theorem allBlank_of_mem_gap (language : Language) (header : Header) (line : Text)
    (below : List Text) {gap : Text}
    (h : gap ∈ (below.take (bodySpan language header line below).passed).drop
      (bodySpan language header line below).kept) : gap.allBlank = true := by
  rw [bodySpan] at h
  split at h
  · simp [braceSpan] at h
  · set body := below.takeWhile (isDeeper header.indent) with hb
    have hp : (indentSpan header.indent below).passed = body.length := rfl
    have ht : below.take body.length = body := (List.prefix_iff_eq_take.1 (List.takeWhile_prefix _)).symm
    rw [indentSpan_kept, hp, ht] at h
    have hs := List.rdropWhile_append_rtakeWhile (p := Text.allBlank) (l := body)
    rw [← hs, List.drop_left] at h
    exact List.mem_rtakeWhile_imp h

/-- How the scan goes through the lines of a source, the first of which has the given number. -/
inductive Scanned (language : Language) : Nat → List Text → List FunctionRecord → Prop
  | nil (n : Nat) : Scanned language n [] []
  | plain (n : Nat) (line : Text) (below : List Text) (records : List FunctionRecord)
      (hn : Header.recognise? language line = none)
      (rest : Scanned language (n + 1) below records) : Scanned language n (line :: below) records
  | record (n : Nat) (line : Text) (below : List Text) (records : List FunctionRecord)
      (header : Header) (hs : Header.recognise? language line = some header)
      (rest : Scanned language (n + 1 + (bodySpan language header line below).passed)
        (below.drop (bodySpan language header line below).passed) records) :
      Scanned language n (line :: below) (ofHeader language n header line below :: records)

theorem scan_skip (language : Language) (n skip : Nat) (lines : List Text) :
    scan language n skip lines = scan language (n + skip) 0 (lines.drop skip) := by
  induction lines generalizing n skip with
  | nil => cases skip <;> simp [scan]
  | cons line below ih =>
      cases skip with
      | zero => rfl
      | succ skip => rw [scan, ih, List.drop_succ_cons, Nat.add_assoc, Nat.add_comm 1]

theorem scanned_scan (language : Language) (n : Nat) (lines : List Text) :
    Scanned language n lines (scan language n 0 lines) := by
  induction h : lines.length using Nat.strong_induction_on generalizing n lines with
  | _ size ih =>
      cases lines with
      | nil => exact .nil n
      | cons line below =>
          simp only [scan]
          split
          · rename_i hn
            exact .plain n line below _ hn (ih _ (by simp only [List.length_cons] at h; omega) _ _ rfl)
          · rename_i header hs
            rw [scan_skip]
            refine .record n line below _ header hs (ih _ ?_ _ _ rfl)
            simp only [List.length_drop, List.length_cons] at h ⊢
            omega

/-- Each record comes of a header and the lines below it, at the place the record tells. -/
theorem Scanned.origin (h : Scanned language n lines records) : ∀ r ∈ records,
    ∃ k line below header, lines.drop k = line :: below ∧
      Header.recognise? language line = some header ∧
      r = ofHeader language (n + k) header line below := by
  induction h with
  | nil n => simp
  | plain n line below records hn rest ih =>
      intro r hr
      obtain ⟨k, l, b, header, hd, hs, rfl⟩ := ih r hr
      exact ⟨k + 1, l, b, header, hd, hs, by rw [Nat.add_assoc, Nat.add_comm 1 k]⟩
  | record n line below records header hs rest ih =>
      intro r hr
      rcases List.mem_cons.1 hr with rfl | hr
      · exact ⟨0, line, below, header, rfl, hs, rfl⟩
      · obtain ⟨k, l, b, header', hd, hs', rfl⟩ := ih r hr
        refine ⟨(bodySpan language header line below).passed + k + 1, l, b, header', ?_, hs', ?_⟩
        · rw [List.drop_succ_cons, ← hd, List.drop_drop]
        · congr 1
          omega

end FunctionRecord

end SoloCall
