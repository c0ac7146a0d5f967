import SoloCall.Proofs.Record.Outline
import SoloCall.Proofs.Record.Span
import SoloCall.Proofs.Text.Blank
import SoloCall.Proofs.Text.Indentation

namespace SoloCall

namespace FunctionRecord

variable {lines rest : List Text} {line : Text} {opening : Nat}

theorem braceBalance_nil : braceBalance [] = 0 := rfl

theorem braceBalance_append (s t : Text) :
    braceBalance (s ++ t) = braceBalance s + braceBalance t := by
  simp only [braceBalance, List.count_append]
  omega

theorem braceBalance_of_not_mem {t : Text} (hopen : '{' ∉ t) (hclose : '}' ∉ t) :
    braceBalance t = 0 := by
  rw [braceBalance, List.count_eq_zero_of_not_mem hopen, List.count_eq_zero_of_not_mem hclose]
  rfl

theorem braceBalance_of_allBlank {t : Text} (h : t.allBlank = true) : braceBalance t = 0 :=
  braceBalance_of_not_mem (Text.not_mem_of_allBlank h rfl) (Text.not_mem_of_allBlank h rfl)

theorem braceBalance_trim (t : Text) : braceBalance t.trim = braceBalance t := by
  have hskip (s : Text) : braceBalance s.skipBlanks = braceBalance s := by
    have hfront : Text.allBlank (s.takeWhile isBlank) = true :=
      List.all_eq_true.2 fun _ => List.mem_takeWhile_imp
    conv_rhs => rw [← List.takeWhile_append_dropWhile (p := isBlank) (l := s)]
    rw [braceBalance_append, braceBalance_of_allBlank hfront, Int.zero_add, Text.skipBlanks]
  have hreverse (s : Text) : braceBalance s.reverse = braceBalance s := by
    simp only [braceBalance, List.count_reverse]
  calc braceBalance t.trim
      = braceBalance (Text.skipBlanks t.skipBlanks.reverse).reverse := rfl
    _ = braceBalance t := by rw [hreverse, hskip, hreverse, hskip]

theorem braceBalance_join (lines : List Text) :
    braceBalance (Text.join ['\n'] lines) = braceBalance lines.flatten := by
  induction lines with
  | nil => rfl
  | cons line rest ih =>
      cases rest with
      | nil => simp [Text.join]
      | cons next rest =>
          have hbreak : braceBalance ['\n'] = 0 := rfl
          rw [Text.join_cons_cons, braceBalance_append, braceBalance_append, hbreak, ih,
            Int.add_zero, ← braceBalance_append, ← List.flatten_cons]

theorem linesToClose_open (depth : Int) (lines : List Text) : ∀ k < linesToClose depth lines,
    1 ≤ depth + braceBalance (lines.take k).flatten := by
  induction lines generalizing depth with
  | nil =>
      intro k hk
      exact absurd hk (Nat.not_lt_zero k)
  | cons line rest ih =>
      intro k hk
      rw [linesToClose] at hk
      split at hk
      · exact absurd hk (Nat.not_lt_zero k)
      · rename_i hdepth
        cases k with
        | zero =>
            rw [List.take_zero, List.flatten_nil, braceBalance_nil]
            omega
        | succ k =>
            have hrest := ih (depth + braceBalance line) k (Nat.lt_of_succ_lt_succ hk)
            rw [List.take_succ_cons, List.flatten_cons, braceBalance_append]
            omega

theorem linesToClose_closed (depth : Int) (lines : List Text) :
    depth + braceBalance (lines.take (linesToClose depth lines)).flatten ≤ 0 ∨
      linesToClose depth lines = lines.length ∧ 1 ≤ depth + braceBalance lines.flatten := by
  induction lines generalizing depth with
  | nil =>
      rw [List.take_nil, List.flatten_nil, braceBalance_nil, Int.add_zero]
      rcases Int.lt_or_le 0 depth with hopen | hdepth
      · exact Or.inr ⟨rfl, Int.add_one_le_of_lt hopen⟩
      · exact Or.inl hdepth
  | cons line rest ih =>
      rw [linesToClose]
      split
      · rename_i hdepth
        rw [List.take_zero, List.flatten_nil, braceBalance_nil, Int.add_zero]
        exact Or.inl hdepth
      · have hrest := ih (depth + braceBalance line)
        rw [List.take_succ_cons, List.flatten_cons, List.flatten_cons, braceBalance_append,
          braceBalance_append, List.length_cons]
        omega

theorem linesToClose_one (rest : List Text) :
    (∀ k < linesToClose 1 rest, 0 ≤ braceBalance (rest.take k).flatten) ∧
      (0 < linesToClose 1 rest ∧ linesToClose 1 rest ≤ rest.length ∧
          braceBalance (rest.take (linesToClose 1 rest)).flatten < 0 ∨
        linesToClose 1 rest = rest.length ∧
          ∀ k ≤ rest.length, 0 ≤ braceBalance (rest.take k).flatten) := by
  have hinside : ∀ k < linesToClose 1 rest, 0 ≤ braceBalance (rest.take k).flatten := by
    intro k hk
    have hopen := linesToClose_open 1 rest k hk
    omega
  refine ⟨hinside, ?_⟩
  rcases linesToClose_closed 1 rest with hclosed | ⟨hall, hopen⟩
  · have hpos : 0 < linesToClose 1 rest := by
      apply Nat.pos_of_ne_zero
      intro hzero
      rw [hzero, List.take_zero, List.flatten_nil, braceBalance_nil] at hclosed
      omega
    exact Or.inl ⟨hpos, linesToClose_le 1 rest, by omega⟩
  · refine Or.inr ⟨hall, ?_⟩
    intro k hk
    rcases Nat.lt_or_eq_of_le hk with hlt | rfl
    · exact hinside k (by omega)
    · rw [List.take_length]
      omega

/-- How many more braces are opened than closed from one line through another. Lines are counted
from one. -/
def balanceAt (lines : List Text) (first last : Nat) : Int := braceBalance (codeAt lines first last)

/-- The line that opens the body below a header: the header, if it opens one brace more than it
closes, or a lone brace under a header without one. -/
inductive OpensOn (lines : List Text) (start : Nat) : Nat → Prop
  | header (line : Text) (hl : lines[start - 1]? = some line) (hb : braceBalance line = 1) :
      OpensOn lines start start
  | below (line next : Text) (hl : lines[start - 1]? = some line) (hn : '{' ∉ line)
      (hnext : lines[start]? = some next) (hlone : next.trim = ['{']) :
      OpensOn lines start (start + 1)

/-- A line is the first after the opening one at which no brace is open any more, or the last of
all, if there is no such line. -/
structure ClosesOn (lines : List Text) (opening last : Nat) : Prop where
  inside : ∀ k, opening ≤ k → k < last → 1 ≤ balanceAt lines opening k
  ending : opening < last ∧ last ≤ lines.length ∧ balanceAt lines opening last ≤ 0 ∨
    last = lines.length ∧ ∀ k, opening < k → k ≤ lines.length → 1 ≤ balanceAt lines opening k

theorem balanceAt_of_drop (hd : lines.drop (opening - 1) = line :: rest) (k : Nat) :
    balanceAt lines opening (opening + k) =
      braceBalance line + braceBalance (rest.take k).flatten := by
  have hcount : opening + k + 1 - opening = k + 1 := by omega
  rw [balanceAt, codeAt, hd, hcount, braceBalance_join, List.take_succ_cons, List.flatten_cons,
    braceBalance_append]

theorem closesOn_of_drop (h₁ : 1 ≤ opening) (hd : lines.drop (opening - 1) = line :: rest)
    (hb : braceBalance line = 1) : ClosesOn lines opening (opening + linesToClose 1 rest) := by
  have hlength : lines.length = opening + rest.length := by
    have := congrArg List.length hd
    rw [List.length_drop, List.length_cons] at this
    omega
  have hbalance (k : Nat) : balanceAt lines opening (opening + k) =
      1 + braceBalance (rest.take k).flatten := by
    rw [balanceAt_of_drop hd, hb]
  obtain ⟨hinside, hending⟩ := linesToClose_one rest
  constructor
  · intro k hk hlt
    obtain ⟨i, rfl⟩ := Nat.exists_eq_add_of_le hk
    have hopen := hinside i (Nat.lt_of_add_lt_add_left hlt)
    rw [hbalance]
    omega
  · rcases hending with ⟨hpos, hle, hclosed⟩ | ⟨hall, hopen⟩
    · refine Or.inl ⟨by omega, by omega, ?_⟩
      rw [hbalance]
      omega
    · refine Or.inr ⟨by rw [hall, hlength], ?_⟩
      intro k hk hle
      obtain ⟨i, rfl⟩ := Nat.exists_eq_add_of_le (Nat.le_of_lt hk)
      have hbelow := hopen i (by omega)
      rw [hbalance]
      omega

theorem contains_of_braceBalance (h : braceBalance line = 1) : line.contains '{' = true := by
  rw [List.contains_iff_mem]
  by_contra hn
  rw [braceBalance, List.count_eq_zero_of_not_mem hn] at h
  omega

theorem closesOn_braceSpan_header {k : Nat} (hd : lines.drop k = line :: rest)
    (hb : braceBalance line = 1) : ClosesOn lines (1 + k) (1 + k + (braceSpan line rest).kept) := by
  have hkept : (braceSpan line rest).kept = linesToClose 1 rest := by
    simp only [braceSpan, contains_of_braceBalance hb, if_true]
  have hstart : 1 + k - 1 = k := Nat.add_sub_cancel_left 1 k
  rw [hkept]
  apply closesOn_of_drop (Nat.le_add_right 1 k) _ hb
  rw [hstart]
  exact hd

theorem closesOn_braceSpan_below {k : Nat} {next : Text}
    (hd : lines.drop k = line :: next :: rest) (hn : '{' ∉ line) (hlone : next.trim = ['{']) :
    ClosesOn lines (1 + k + 1) (1 + k + (braceSpan line (next :: rest)).kept) := by
  have hkept : (braceSpan line (next :: rest)).kept = linesToClose 1 rest + 1 := by
    simp [braceSpan, hn, hlone]
  have hb : braceBalance next = 1 := by
    rw [← braceBalance_trim, hlone]
    rfl
  have hdrop : lines.drop (1 + k + 1 - 1) = next :: rest := by
    rw [Nat.add_sub_cancel, Nat.add_comm, ← List.drop_drop, hd]
    rfl
  have hclose := closesOn_of_drop (by omega) hdrop hb
  rwa [hkept, Nat.add_comm (linesToClose 1 rest), ← Nat.add_assoc]

theorem braceSpan_kept_of_bodiless (hn : '{' ∉ line)
    (hlone : ∀ next, rest.head? = some next → next.trim ≠ ['{']) :
    (braceSpan line rest).kept = 0 := by
  cases rest with
  | nil => simp [braceSpan, hn]
  | cons next rest => simp [braceSpan, hn, hlone next rfl]

/-- The last line of a record whose body is in braces. A header that opens no body is the only
line of its record. -/
theorem extract_lineEnd_closes {language : Language} (hb : language.usesBraces = true)
    (source : Text) :
    let lines := source.split '\n'
    ∀ r ∈ extract language source,
      (∀ opening, OpensOn lines r.lineStart opening → ClosesOn lines opening r.lineEnd) ∧
      ∀ line, lines[r.lineStart - 1]? = some line → '{' ∉ line →
        (∀ next, lines[r.lineStart]? = some next → next.trim ≠ ['{']) →
        r.lineEnd = r.lineStart := by
  intro lines r hr
  obtain ⟨k, line, below, header, hd, -, rfl⟩ := (scanned_scan language 1 lines).origin r hr
  have hspan : (bodySpan language header line below).kept = (braceSpan line below).kept := by
    rw [bodySpan, if_pos hb]
  have hline : lines[1 + k - 1]? = some line := by
    have hhead : (lines.drop k)[0]? = some line := by rw [hd]; rfl
    rw [List.getElem?_drop] at hhead
    simpa using hhead
  have hbelow : lines[1 + k]? = below.head? := by
    have htail : (lines.drop k)[1]? = below.head? := by rw [hd]; cases below <;> rfl
    rw [List.getElem?_drop, Nat.add_comm] at htail
    exact htail
  simp only [ofHeader, hspan]
  constructor
  · intro opening hopening
    cases hopening with
    | header first hl hbalance =>
        obtain rfl : line = first := Option.some.inj (hline.symm.trans hl)
        exact closesOn_braceSpan_header hd hbalance
    | below first next hl hn hnext hlone =>
        obtain rfl : line = first := Option.some.inj (hline.symm.trans hl)
        obtain ⟨rest, rfl⟩ := List.head?_eq_some_iff.1 (hbelow.symm.trans hnext)
        exact closesOn_braceSpan_below hd hn hlone
  · intro first hl hn hlone
    obtain rfl : line = first := Option.some.inj (hline.symm.trans hl)
    rw [hbelow] at hlone
    rw [braceSpan_kept_of_bodiless hn hlone, Nat.add_zero]

def overshootSource : Text :=
  "int f(int a) \x7b\n  if (a) \x7b \x7b\n\x7d\x7d\x7d\x7d\nint proto(int a)\n\nvoid g()\n \x7b\n  \x7b\x7d\n".toList

theorem extract_lineEnd_overshoot : Language.c.usesBraces = true ∧
    (extract .c overshootSource).map (fun r => (r.lineStart, r.lineEnd)) = [(1, 3), (4, 4), (6, 9)] ∧
    ∀ r ∈ extract .c overshootSource,
      (∀ opening, OpensOn (overshootSource.split '\n') r.lineStart opening →
        ClosesOn (overshootSource.split '\n') opening r.lineEnd) ∧
      ∀ line, (overshootSource.split '\n')[r.lineStart - 1]? = some line → '{' ∉ line →
        (∀ next, (overshootSource.split '\n')[r.lineStart]? = some next → next.trim ≠ ['{']) →
        r.lineEnd = r.lineStart :=
  ⟨rfl, by decide, extract_lineEnd_closes rfl overshootSource⟩

end FunctionRecord

end SoloCall
