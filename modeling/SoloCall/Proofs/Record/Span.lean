import SoloCall.Proofs.Record.Scan

namespace SoloCall

namespace FunctionRecord

variable {below below' : List Text}

theorem linesToClose_congr {depth : Int} {lines lines' : List Text}
    (h : ∀ k ≤ linesToClose depth lines,
      lines'[k]?.map braceBalance = lines[k]?.map braceBalance) :
    linesToClose depth lines' = linesToClose depth lines := by
  induction lines generalizing depth lines' with
  | nil =>
      have h₀ := h 0 (Nat.zero_le _)
      cases lines' with
      | nil => rfl
      | cons line' rest' => simp at h₀
  | cons line rest ih =>
      have h₀ := h 0 (Nat.zero_le _)
      cases lines' with
      | nil => simp at h₀
      | cons line' rest' =>
          have hb : braceBalance line' = braceBalance line := by simpa using h₀
          simp only [linesToClose] at h ⊢
          by_cases hd : depth ≤ 0
          · rw [if_pos hd, if_pos hd]
          · rw [if_neg hd] at h
            rw [if_neg hd, if_neg hd, hb, ih]
            intro k hk
            simpa using h (k + 1) (Nat.succ_le_succ hk)

def startsLone (below : List Text) : Bool := below.head?.any fun line => line.trim = ['{']

theorem braceSpan_eq (header : Text) (below : List Text) :
    braceSpan header below =
      let n := if header.contains '{' then linesToClose 1 below
        else if startsLone below then linesToClose 1 below.tail + 1 else 0
      ⟨n, n⟩ := by
  cases below with
  | nil => simp [braceSpan, startsLone, linesToClose]
  | cons next rest => simp [braceSpan, startsLone]

theorem braceSpan_congr {header header' : Text}
    (hopen : header'.contains '{' = header.contains '{')
    (hlone : header.contains '{' = false → startsLone below' = startsLone below)
    (h : ∀ k ≤ (braceSpan header below).kept,
      below'[k]?.map braceBalance = below[k]?.map braceBalance) :
    braceSpan header' below' = braceSpan header below := by
  rw [braceSpan_eq] at h
  rw [braceSpan_eq, braceSpan_eq, hopen]
  cases hh : header.contains '{' with
  | true =>
      rw [hh] at h
      simp only [if_pos] at h ⊢
      rw [linesToClose_congr h]
  | false =>
      rw [hh] at h
      rw [hlone hh]
      cases hl : startsLone below with
      | false => rfl
      | true =>
          simp only [hl, if_pos, Bool.false_eq_true, if_false] at h ⊢
          have htail : linesToClose 1 below'.tail = linesToClose 1 below.tail := by
            refine linesToClose_congr fun k hk => ?_
            simpa using h (k + 1) (Nat.succ_le_succ hk)
          rw [htail]

/-- What the reach of an indented body takes from one line. -/
def layer (indent : Nat) (line : Text) : Bool × Bool := (isDeeper indent line, line.allBlank)

theorem takeWhile_isDeeper_congr {indent indent' : Nat}
    (h : ∀ k ≤ (below.takeWhile (isDeeper indent)).length,
      below'[k]?.map (layer indent') = below[k]?.map (layer indent)) :
    (below'.takeWhile (isDeeper indent')).map Text.allBlank =
      (below.takeWhile (isDeeper indent)).map Text.allBlank := by
  induction below generalizing below' with
  | nil =>
      have h₀ := h 0 (Nat.zero_le _)
      cases below' with
      | nil => rfl
      | cons line' rest' => simp at h₀
  | cons line rest ih =>
      have h₀ := h 0 (Nat.zero_le _)
      cases below' with
      | nil => simp at h₀
      | cons line' rest' =>
          obtain ⟨hdeep, hblank⟩ : isDeeper indent' line' = isDeeper indent line ∧
              line'.allBlank = line.allBlank := by simpa [layer] using h₀
          rw [List.takeWhile_cons, List.takeWhile_cons, hdeep]
          cases hd : isDeeper indent line with
          | false => rfl
          | true =>
              rw [List.takeWhile_cons_of_pos hd] at h
              simp only [if_pos, List.map_cons, hblank]
              rw [ih]
              intro k hk
              simpa using h (k + 1) (Nat.succ_le_succ hk)

theorem indentSpan_congr {indent indent' : Nat}
    (h : ∀ k ≤ (indentSpan indent below).passed,
      below'[k]?.map (layer indent') = below[k]?.map (layer indent)) :
    indentSpan indent' below' = indentSpan indent below := by
  have hbody := takeWhile_isDeeper_congr h
  have hkept : ∀ body : List Text, (body.reverse.dropWhile Text.allBlank).length =
      ((body.map Text.allBlank).reverse.dropWhile id).length := by
    intro body
    rw [← List.map_reverse, List.dropWhile_map, List.length_map, Function.id_comp]
  have hpassed := congrArg List.length hbody
  rw [List.length_map, List.length_map] at hpassed
  simp only [indentSpan, hkept, hbody, hpassed]

end FunctionRecord

end SoloCall
