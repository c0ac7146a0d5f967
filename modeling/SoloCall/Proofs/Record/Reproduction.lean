import SoloCall.Proofs.Record.Scan
import SoloCall.Proofs.Text.Split

namespace SoloCall

namespace FunctionRecord

theorem linesToClose_take (depth : Int) (lines : List Text) :
    linesToClose depth (lines.take (linesToClose depth lines)) = linesToClose depth lines := by
  induction lines generalizing depth with
  | nil => rfl
  | cons line rest ih =>
      by_cases hd : depth ≤ 0
      · simp [linesToClose, hd]
      · have hn : linesToClose depth (line :: rest) =
            linesToClose (depth + braceBalance line) rest + 1 := by simp [linesToClose, hd]
        rw [hn, List.take_succ_cons, linesToClose, if_neg hd, ih]

theorem braceSpan_take (header : Text) (below : List Text) :
    braceSpan header (below.take (braceSpan header below).kept) =
      ⟨(braceSpan header below).kept, (braceSpan header below).kept⟩ := by
  simp only [braceSpan]
  by_cases hb : '{' ∈ header
  · simp [hb, linesToClose_take]
  · cases below with
    | nil => simp
    | cons next rest =>
        by_cases hl : next.trim = ['{']
        · simp [hb, hl, List.take_succ_cons, linesToClose_take]
        · simp [hb, hl]

theorem indentSpan_take (indent : Nat) (below : List Text) :
    indentSpan indent (below.take (indentSpan indent below).kept) =
      ⟨(indentSpan indent below).kept, (indentSpan indent below).kept⟩ := by
  rw [indentSpan_kept]
  set body := below.takeWhile (isDeeper indent) with hbody
  set kept := body.rdropWhile Text.allBlank with hkept
  have hpre : kept <+: body := List.rdropWhile_prefix _ _
  have htake : below.take kept.length = kept :=
    (List.prefix_iff_eq_take.1 (hpre.trans (List.takeWhile_prefix _))).symm
  have hdeep : kept.takeWhile (isDeeper indent) = kept :=
    List.takeWhile_eq_self_iff.2 fun l hl => List.mem_takeWhile_imp (hpre.subset hl)
  have hpassed : (indentSpan indent kept).passed = kept.length := by simp [indentSpan, hdeep]
  have hkeep : (indentSpan indent kept).kept = kept.length := by
    rw [indentSpan_kept, hdeep, hkept, List.rdropWhile_idempotent]
  rw [htake]
  exact congrArg₂ Span.mk hkeep hpassed

theorem bodySpan_take (language : Language) (header : Header) (line : Text) (below : List Text) :
    bodySpan language header line (below.take (bodySpan language header line below).kept) =
      ⟨(bodySpan language header line below).kept,
        (bodySpan language header line below).kept⟩ := by
  simp only [bodySpan]
  split
  · exact braceSpan_take line below
  · exact indentSpan_take header.indent below

theorem scan_kept {language : Language} {line : Text} {header : Header} (n : Nat)
    (below : List Text) (hs : Header.recognise? language line = some header) :
    scan language n 0 (line :: below.take (bodySpan language header line below).kept) =
      [ofHeader language n header line below] := by
  have hspan := bodySpan_take language header line below
  set kept := (bodySpan language header line below).kept with hkept
  have hrest : (below.take kept).drop kept = [] := by simp
  rw [scan, hs]
  simp only [hspan]
  rw [scan_skip, hrest, scan]
  simp [ofHeader, hspan, ← hkept, List.take_take]

/-- The code of a record is a source with just that record in it. -/
theorem extract_code (language : Language) (source : Text) :
    ∀ r ∈ extract language source, extract language r.code =
      [{ r with lineStart := 1, lineEnd := r.lineEnd - r.lineStart + 1 }] := by
  intro r hr
  have hscan := scanned_scan language 1 (source.split '\n')
  obtain ⟨k, line, below, header, hd, hs, rfl⟩ := hscan.origin r hr
  set kept := (bodySpan language header line below).kept with hkept
  have hlines : ∀ l ∈ line :: below.take kept, '\n' ∉ l := by
    intro l hl
    have hmem : l ∈ (source.split '\n').drop k := by
      rw [hd]
      rcases List.mem_cons.1 hl with rfl | hl
      · exact List.mem_cons_self
      · exact List.mem_cons_of_mem _ (List.mem_of_mem_take hl)
    exact Text.not_mem_of_mem_split (List.mem_of_mem_drop hmem)
  have hcode : (ofHeader language (1 + k) header line below).code.split '\n' =
      line :: below.take kept := by
    simp only [ofHeader, ← hkept]
    exact Text.split_join (by simp) hlines
  rw [extract, hcode, scan_kept 1 below hs]
  simp only [ofHeader, ← hkept, List.cons.injEq, FunctionRecord.mk.injEq, and_true, true_and]
  omega

def nestedSource : Text :=
  "def f(a):\n    return a\n\nif x:\n  def g(b, c=1):\n    pass\n\n\ny".toList

def nestedRecord : FunctionRecord where
  name := "g".toList
  parameters := [⟨"b".toList, "any".toList, none⟩, ⟨"c".toList, "any".toList, some "1".toList⟩]
  code := "  def g(b, c=1):\n    pass".toList
  lineStart := 5
  lineEnd := 6
  language := .python

theorem extract_code_nested : nestedRecord ∈ extract .python nestedSource ∧
    extract .python nestedRecord.code = [{ nestedRecord with lineStart := 1, lineEnd := 2 }] := by
  have hr : nestedRecord ∈ extract .python nestedSource := by decide
  exact ⟨hr, extract_code .python nestedSource nestedRecord hr⟩

end FunctionRecord

end SoloCall
