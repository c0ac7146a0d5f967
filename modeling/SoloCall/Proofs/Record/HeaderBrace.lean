import SoloCall.Proofs.Record.Balance

namespace SoloCall

namespace FunctionRecord

variable {lines below : List Text} {line : Text} {start last : Nat}

/-- A line is the first one below a header at which more braces were closed than opened since the
header, or the last of all, if there is no such line. -/
structure OverrunsTo (lines : List Text) (start last : Nat) : Prop where
  inside : ∀ k, start ≤ k → k < last → 0 ≤ balanceAt lines (start + 1) k
  ending : start < last ∧ last ≤ lines.length ∧ balanceAt lines (start + 1) last < 0 ∨
    last = lines.length ∧
      ∀ k, start ≤ k → k ≤ lines.length → 0 ≤ balanceAt lines (start + 1) k

theorem balanceAt_below (hd : lines.drop start = below) (k : Nat) :
    balanceAt lines (start + 1) (start + k) = braceBalance (below.take k).flatten := by
  have hcount : start + k + 1 - (start + 1) = k := by omega
  rw [balanceAt, codeAt, Nat.add_sub_cancel, hd, hcount, braceBalance_join]

theorem overrunsTo_of_drop (hd : lines.drop start = below) (hstart : start ≤ lines.length) :
    OverrunsTo lines start (start + linesToClose 1 below) := by
  have hlength : lines.length = start + below.length := by
    rw [← hd, List.length_drop]
    omega
  obtain ⟨hinside, hending⟩ := linesToClose_one below
  constructor
  · intro k hk hlt
    obtain ⟨i, rfl⟩ := Nat.exists_eq_add_of_le hk
    rw [balanceAt_below hd]
    exact hinside i (Nat.lt_of_add_lt_add_left hlt)
  · rcases hending with ⟨hpos, hle, hclosed⟩ | ⟨hall, hopen⟩
    · refine Or.inl ⟨by omega, by omega, ?_⟩
      rwa [balanceAt_below hd]
    · refine Or.inr ⟨by rw [hall, hlength], ?_⟩
      intro k hk hle
      obtain ⟨i, rfl⟩ := Nat.exists_eq_add_of_le hk
      rw [balanceAt_below hd]
      exact hopen i (by omega)

theorem braceSpan_kept_of_mem (h : '{' ∈ line) (below : List Text) :
    (braceSpan line below).kept = linesToClose 1 below := by
  simp [braceSpan, h]

theorem linesToClose_one_eq_zero_iff : linesToClose 1 below = 0 ↔ below = [] := by
  cases below with
  | nil => simp [linesToClose]
  | cons next rest => simp [linesToClose]

theorem extract_lineStart_ne_of_lt {language : Language} {source : Text} {r : FunctionRecord}
    (hr : r ∈ extract language source) (hlt : r.lineStart < r.lineEnd) :
    ∀ s ∈ extract language source, s.lineStart ≠ r.lineStart + 1 := by
  intro s hs hnext
  have hscan : Scanned language 1 (source.split '\n') (extract language source) :=
    scanned_scan language 1 _
  have hle := hscan.lineStart_le_lineEnd s hs
  have hrk : r.Covers (r.lineStart + 1) := ⟨Nat.le_succ _, hlt⟩
  have hsk : s.Covers (r.lineStart + 1) := ⟨hnext.le, by omega⟩
  have heq : r = s := Covers.unique hscan.pairwise_lt hr hs hrk hsk
  rw [← heq] at hnext
  omega

/-- Where the record of a header with a brace ends. However many braces the header closes, the line
below it belongs to the record, and a function there is not reported. -/
theorem extract_lineEnd_overruns {language : Language} (hb : language.usesBraces = true)
    (source : Text) :
    let lines := source.split '\n'
    ∀ r ∈ extract language source, ∀ line,
      lines[r.lineStart - 1]? = some line → '{' ∈ line →
      OverrunsTo lines r.lineStart r.lineEnd ∧
      (r.lineEnd = r.lineStart ↔ r.lineStart = lines.length) ∧
      ∀ s ∈ extract language source, s.lineStart ≠ r.lineStart + 1 := by
  intro lines r hr line hl hbrace
  have hscan : Scanned language 1 lines (extract language source) := scanned_scan language 1 lines
  obtain ⟨k, first, below, header, hd, -, hrecord⟩ := hscan.origin r hr
  have hfirst : lines[k]? = some first := by
    rw [← List.head?_drop, hd]
    rfl
  have hbelow : lines.drop (1 + k) = below := by
    rw [Nat.add_comm, ← List.drop_drop, hd]
    rfl
  have hstart : r.lineStart = 1 + k := by rw [hrecord]; rfl
  obtain rfl : first = line := by
    rw [hstart, Nat.add_sub_cancel_left, hfirst] at hl
    exact Option.some.inj hl
  have hend : r.lineEnd = r.lineStart + linesToClose 1 below := by
    rw [hrecord]
    simp only [ofHeader, bodySpan, hb, if_true, braceSpan_kept_of_mem hbrace]
  have hlength : lines.length = r.lineStart + below.length := by
    have hdrop := congrArg List.length hd
    rw [List.length_drop, List.length_cons] at hdrop
    omega
  have hone : r.lineEnd = r.lineStart ↔ r.lineStart = lines.length := by
    have hzero : linesToClose 1 below = 0 ↔ below.length = 0 :=
      linesToClose_one_eq_zero_iff.trans List.length_eq_zero_iff.symm
    omega
  refine ⟨?_, hone, ?_⟩
  · rw [hend]
    exact overrunsTo_of_drop (by rw [hstart, hbelow]) (by omega)
  · by_cases hlast : r.lineStart = lines.length
    · intro s hs
      have hsLe := hscan.lineStart_le_lineEnd s hs
      have hsLt := hscan.lineEnd_lt s hs
      omega
    · apply extract_lineStart_ne_of_lt hr
      have hle := hscan.lineStart_le_lineEnd r hr
      omega

def oneLineSource : Text :=
  "func one() int \x7b return 1 \x7d\nfunc two() int \x7b\n\treturn 2\n\x7d".toList

theorem extract_lineEnd_overruns_oneLine : Language.go.usesBraces = true ∧
    (extract .go oneLineSource).map (fun r => (r.lineStart, r.lineEnd)) = [(1, 4)] ∧
    ∀ r ∈ extract .go oneLineSource, ∀ line,
      (oneLineSource.split '\n')[r.lineStart - 1]? = some line → '{' ∈ line →
      OverrunsTo (oneLineSource.split '\n') r.lineStart r.lineEnd ∧
      (r.lineEnd = r.lineStart ↔ r.lineStart = (oneLineSource.split '\n').length) ∧
      ∀ s ∈ extract .go oneLineSource, s.lineStart ≠ r.lineStart + 1 :=
  ⟨rfl, by decide, extract_lineEnd_overruns rfl oneLineSource⟩

theorem extract_swallows_next :
    ¬∀ (language : Language) (source : Text), language.usesBraces = true →
      ∀ r ∈ extract language source, ∀ line,
        (source.split '\n')[r.lineStart - 1]? = some line → '{' ∈ line →
        line.count '}' = line.count '{' →
        (∀ next, (source.split '\n')[r.lineStart]? = some next → next.trim ≠ ['{']) →
        r.lineEnd = r.lineStart := by
  intro hall
  let one : FunctionRecord := ⟨"one".toList, [], oneLineSource, 1, 4, .go⟩
  have hone : one ∈ extract .go oneLineSource := by decide
  have hend := hall .go oneLineSource rfl one hone "func one() int \x7b return 1 \x7d".toList
    (by decide) (by decide) (by decide) (by
      intro next hnext
      obtain rfl : "func two() int \x7b".toList = next := Option.some.inj hnext
      decide)
  exact absurd hend (by decide)

end FunctionRecord

end SoloCall
