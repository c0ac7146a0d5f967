import SoloCall.Proofs.Record.Partition

namespace SoloCall

namespace FunctionRecord

variable {language : Language} {lines lines' : List Text} {records : List FunctionRecord} {n : Nat}

/-- What a record tells of its function apart from the code: name, parameters, first and last
line. -/
def outline (r : FunctionRecord) : Text × List Parameter × Nat × Nat :=
  (r.name, r.parameters, r.lineStart, r.lineEnd)

inductive InStep (language : Language) : List Text → List Text → Prop
  | nil : InStep language [] []
  | plain (line line' : Text) (below below' : List Text)
      (hn : Header.recognise? language line = none) (hn' : Header.recognise? language line' = none)
      (rest : InStep language below below') : InStep language (line :: below) (line' :: below')
  | record (line line' : Text) (below below' : List Text) (header header' : Header)
      (hs : Header.recognise? language line = some header)
      (hs' : Header.recognise? language line' = some header')
      (hname : header'.name = header.name) (hparams : header'.params = header.params)
      (hspan : bodySpan language header' line' below' = bodySpan language header line below)
      (rest : InStep language (below.drop (bodySpan language header line below).passed)
        (below'.drop (bodySpan language header line below).passed)) :
      InStep language (line :: below) (line' :: below')

theorem InStep.outline_eq (h : InStep language lines lines') (n : Nat) :
    (scan language n 0 lines').map outline = (scan language n 0 lines).map outline := by
  induction h generalizing n with
  | nil => rfl
  | plain line line' below below' hn hn' rest ih =>
      rw [scan, scan, hn, hn']
      exact ih (n + 1)
  | record line line' below below' header header' hs hs' hname hparams hspan rest ih =>
      rw [scan, scan, hs, hs']
      simp only [List.map_cons]
      rw [scan_skip language (n + 1) _ below', scan_skip language (n + 1) _ below, hspan, ih]
      congr 1
      simp only [outline, ofHeader, hname, hparams, hspan]

def codeAt (lines : List Text) (first last : Nat) : Text :=
  Text.join ['\n'] ((lines.drop (first - 1)).take (last + 1 - first))

theorem code_scan (language : Language) (lines : List Text) : ∀ r ∈ scan language 1 0 lines,
    r.code = codeAt lines r.lineStart r.lineEnd :=
  (scanned_scan language 1 lines).code

theorem language_scan (language : Language) (lines : List Text) :
    ∀ r ∈ scan language 1 0 lines, r.language = language := by
  intro r hr
  obtain ⟨_, _, -, -, -, -, h⟩ := (scanned_scan language 1 lines).headed r hr
  exact h

theorem InStep.scan_eq (h : InStep language lines lines') :
    scan language 1 0 lines' = (scan language 1 0 lines).map fun r =>
      { r with code := codeAt lines' r.lineStart r.lineEnd } := by
  let restored : Text × List Parameter × Nat × Nat → FunctionRecord := fun o =>
    ⟨o.1, o.2.1, codeAt lines' o.2.2.1 o.2.2.2, o.2.2.1, o.2.2.2, language⟩
  have hself : ∀ r ∈ scan language 1 0 lines', restored (outline r) = r := by
    intro r hr
    simp only [restored, outline, ← code_scan language lines' r hr,
      ← language_scan language lines' r hr]
  have hrest : ∀ r ∈ scan language 1 0 lines, restored (outline r) =
      { r with code := codeAt lines' r.lineStart r.lineEnd } := by
    intro r hr
    simp only [restored, outline, ← language_scan language lines r hr]
  calc scan language 1 0 lines'
      = (scan language 1 0 lines').map fun r => restored (outline r) :=
        ((List.map_congr_left hself).trans (List.map_id _)).symm
    _ = ((scan language 1 0 lines').map outline).map restored := by rw [List.map_map]; rfl
    _ = ((scan language 1 0 lines).map outline).map restored := by rw [h.outline_eq]
    _ = (scan language 1 0 lines).map fun r => restored (outline r) := by rw [List.map_map]; rfl
    _ = _ := List.map_congr_left hrest

end FunctionRecord

end SoloCall
