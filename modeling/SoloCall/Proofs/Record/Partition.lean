import Mathlib.Data.List.Pairwise
import Mathlib.Tactic.Set
import SoloCall.Proofs.Record.Scan

namespace SoloCall

namespace FunctionRecord

variable {language : Language} {lines : List Text} {records : List FunctionRecord} {n : Nat}

def Covers (r : FunctionRecord) (number : Nat) : Prop := r.lineStart ≤ number ∧ number ≤ r.lineEnd

namespace Scanned

theorem first_le (h : Scanned language n lines records) : ∀ r ∈ records, n ≤ r.lineStart := by
  intro r hr
  obtain ⟨k, line, below, header, -, -, rfl⟩ := h.origin r hr
  exact Nat.le_add_right n k

theorem lineStart_le_lineEnd (h : Scanned language n lines records) :
    ∀ r ∈ records, r.lineStart ≤ r.lineEnd := by
  intro r hr
  obtain ⟨k, line, below, header, -, -, rfl⟩ := h.origin r hr
  exact Nat.le_add_right (n + k) _

theorem lineEnd_lt (h : Scanned language n lines records) :
    ∀ r ∈ records, r.lineEnd < n + lines.length := by
  intro r hr
  obtain ⟨k, line, below, header, hd, -, rfl⟩ := h.origin r hr
  have hlength : lines.length - k = below.length + 1 := by
    rw [← List.length_drop, hd, List.length_cons]
  have hk := bodySpan_kept_le_passed language header line below
  have hp := bodySpan_passed_le language header line below
  simp only [ofHeader]
  omega

theorem pairwise_lt (h : Scanned language n lines records) :
    records.Pairwise fun r s => r.lineEnd < s.lineStart := by
  induction h with
  | nil n => exact .nil
  | plain n line below records hn rest ih => exact ih
  | record n line below records header hs rest ih =>
      refine List.pairwise_cons.2 ⟨fun s hs => ?_, ih⟩
      have hk := bodySpan_kept_le_passed language header line below
      have := rest.first_le s hs
      simp only [ofHeader]
      omega

theorem headed (h : Scanned language n lines records) : ∀ r ∈ records, ∃ line header,
    lines[r.lineStart - n]? = some line ∧ Header.recognise? language line = some header ∧
      r.name = header.name ∧ r.parameters = Parameter.tokenize language header.params.trim ∧
      r.language = language := by
  intro r hr
  obtain ⟨k, line, below, header, hd, hs, rfl⟩ := h.origin r hr
  refine ⟨line, header, ?_, hs, rfl, rfl, rfl⟩
  have hhead : (lines.drop k)[0]? = some line := by rw [hd]; rfl
  rw [List.getElem?_drop] at hhead
  simpa [ofHeader] using hhead

theorem code (h : Scanned language n lines records) : ∀ r ∈ records,
    r.code = Text.join ['\n'] ((lines.drop (r.lineStart - n)).take (r.lineEnd + 1 - r.lineStart)) := by
  intro r hr
  obtain ⟨k, line, below, header, hd, -, rfl⟩ := h.origin r hr
  set kept := (bodySpan language header line below).kept with hkept
  have hstart : n + k - n = k := Nat.add_sub_cancel_left n k
  have hcount : n + k + kept + 1 - (n + k) = kept + 1 := by omega
  simp only [ofHeader, ← hkept, hstart, hcount, hd, List.take_succ_cons]

theorem covered (h : Scanned language n lines records) {i : Nat} {line : Text}
    (hl : lines[i]? = some line) (hs : (Header.recognise? language line).isSome) :
    ∃ r ∈ records, r.Covers (n + i) := by
  induction h generalizing i with
  | nil n => simp at hl
  | plain n first below records hn rest ih =>
      cases i with
      | zero =>
          obtain rfl : first = line := by simpa using hl
          simp [hn] at hs
      | succ i =>
          obtain ⟨r, hr, hc⟩ := ih (by simpa using hl)
          exact ⟨r, hr, by rwa [Nat.add_assoc, Nat.add_comm 1 i] at hc⟩
  | record n first below records header hf rest ih =>
      set span := bodySpan language header first below with hspan
      cases i with
      | zero => exact ⟨_, List.mem_cons_self, Nat.le_refl n, Nat.le_add_right n _⟩
      | succ i =>
          have hb : below[i]? = some line := by simpa using hl
          rcases Nat.lt_or_ge i span.kept with hi | hi
          · refine ⟨_, List.mem_cons_self, ?_⟩
            simp only [Covers, ofHeader, ← hspan]
            omega
          · rcases Nat.lt_or_ge i span.passed with hp | hp
            · have hgap : line ∈ (below.take span.passed).drop span.kept := by
                apply List.mem_of_getElem? (i := i - span.kept)
                rw [List.getElem?_drop, Nat.add_sub_cancel' hi, List.getElem?_take_of_lt hp, hb]
              have hblank := allBlank_of_mem_gap language header first below hgap
              rw [Header.recognise?_eq_none_of_allBlank language hblank] at hs
              simp at hs
            · obtain ⟨r, hr, hc⟩ := ih (i := i - span.passed)
                (by rw [List.getElem?_drop, Nat.add_sub_cancel' hp, hb])
              refine ⟨r, List.mem_cons_of_mem _ hr, ?_⟩
              have hn : n + 1 + span.passed + (i - span.passed) = n + (i + 1) := by omega
              rwa [hn] at hc

end Scanned

theorem Covers.unique (h : records.Pairwise fun r s => r.lineEnd < s.lineStart)
    {r s : FunctionRecord} (hr : r ∈ records) (hs : s ∈ records) {k : Nat} (hrk : r.Covers k)
    (hsk : s.Covers k) : r = s := by
  by_contra hne
  obtain ⟨hr₁, hr₂⟩ := hrk
  obtain ⟨hs₁, hs₂⟩ := hsk
  let Apart (r s : FunctionRecord) : Prop := r.lineEnd < s.lineStart ∨ s.lineEnd < r.lineStart
  have hapart : records.Pairwise Apart := h.imp fun hlt => Or.inl hlt
  have : Std.Symm Apart := ⟨fun _ _ => Or.symm⟩
  rcases hapart.forall hr hs hne with hlt | hlt <;> omega

/-- The records of a source are disjoint and in order, each is the text of its lines under the
header on the first of them, and each line with a header lies in exactly one of them: it is the
first line, or a line further down. -/
theorem extract_partitions (language : Language) (source : Text) :
    let lines := source.split '\n'
    let records := extract language source
    (∀ r ∈ records, 1 ≤ r.lineStart ∧ r.lineStart ≤ r.lineEnd ∧ r.lineEnd ≤ lines.length) ∧
    records.Pairwise (fun r s => r.lineEnd < s.lineStart) ∧
    (∀ r ∈ records, r.code =
      Text.join ['\n'] ((lines.drop (r.lineStart - 1)).take (r.lineEnd + 1 - r.lineStart))) ∧
    (∀ r ∈ records, ∃ line header, lines[r.lineStart - 1]? = some line ∧
      Header.recognise? language line = some header ∧ r.name = header.name ∧
      r.parameters = Parameter.tokenize language header.params.trim ∧ r.language = language) ∧
    (∀ (i : Nat) (line : Text), lines[i]? = some line →
      (Header.recognise? language line).isSome →
      ∃! r, r ∈ records ∧
        (r.lineStart = i + 1 ∨ r.lineStart < i + 1 ∧ i + 1 ≤ r.lineEnd)) := by
  intro lines records
  have hscan : Scanned language 1 lines records := scanned_scan language 1 lines
  refine ⟨fun r hr => ⟨hscan.first_le r hr, hscan.lineStart_le_lineEnd r hr, ?_⟩,
    hscan.pairwise_lt, hscan.code, hscan.headed, ?_⟩
  · have := hscan.lineEnd_lt r hr
    omega
  · intro i line hl hs
    have hcovers : ∀ r ∈ records,
        (r.lineStart = i + 1 ∨ r.lineStart < i + 1 ∧ i + 1 ≤ r.lineEnd) ↔ r.Covers (1 + i) := by
      intro r hr
      have := hscan.lineStart_le_lineEnd r hr
      rw [Covers]
      omega
    obtain ⟨r, hr, hc⟩ := hscan.covered hl hs
    refine ⟨r, ⟨hr, (hcovers r hr).2 hc⟩, ?_⟩
    rintro s ⟨hs, hsc⟩
    exact Covers.unique hscan.pairwise_lt hs hr ((hcovers s hs).1 hsc) hc

end FunctionRecord

end SoloCall
