import SoloCall.Proofs.Record.Likeness

namespace SoloCall

namespace FunctionRecord

variable {lines below body gap behind : List Text} {line : Text} {indent k : Nat}

structure Layers (indent : Nat) (below body gap behind : List Text) : Prop where
  below_eq : below = body ++ (gap ++ behind)
  body_deeper : ∀ line ∈ body, isDeeper indent line = true
  body_ends : ∀ line, body.getLast? = some line → line.allBlank = false
  gap_blank : ∀ line ∈ gap, line.allBlank = true
  behind_starts : ∀ line, behind.head? = some line → isDeeper indent line = false

theorem exists_layers (indent : Nat) (below : List Text) : ∃ body gap behind,
    Layers indent below body gap behind ∧ (indentSpan indent below).kept = body.length := by
  set deeper := below.takeWhile (isDeeper indent) with hdeeper
  have hcut : deeper.rdropWhile Text.allBlank ++ deeper.rtakeWhile Text.allBlank = deeper :=
    List.rdropWhile_append_rtakeWhile
  refine ⟨deeper.rdropWhile Text.allBlank, deeper.rtakeWhile Text.allBlank,
    below.dropWhile (isDeeper indent), ⟨?_, ?_, ?_, ?_, ?_⟩, indentSpan_kept indent below⟩
  · rw [← List.append_assoc, hcut, hdeeper, List.takeWhile_append_dropWhile]
  · intro line hl
    exact List.mem_takeWhile_imp ((List.rdropWhile_prefix _ _).subset hl)
  · intro line hl
    obtain ⟨hne, rfl⟩ := List.mem_getLast?_eq_getLast hl
    exact eq_false_of_ne_true (List.rdropWhile_last_not _ _ hne)
  · intro line hl
    exact List.mem_rtakeWhile_imp hl
  · intro line hl
    have hhead := List.head?_dropWhile_not (isDeeper indent) below
    rw [hl] at hhead
    simpa using hhead

/-- A suite under a header of the given indent: its lines are blank or deeper, the last is not
blank, and no deeper line follows but for blank ones between. Lines are counted from one. -/
structure IsSuite (lines : List Text) (indent start last : Nat) : Prop where
  inside : ∀ n line, start < n → n ≤ last → lines[n - 1]? = some line →
    line.allBlank = true ∨ indent < line.indent
  ending : ∃ line, lines[last - 1]? = some line ∧ line.allBlank = false
  behind : ∀ line, (lines.drop last).find? (fun line => !line.allBlank) = some line →
    line.indent ≤ indent

theorem isSuite_of_layers (h : Layers indent below body gap behind)
    (hd : lines.drop k = line :: below) (hline : line.allBlank = false) :
    IsSuite lines indent (1 + k) (1 + k + body.length) := by
  have hget (i : Nat) : lines[k + i]? = (line :: below)[i]? := by rw [← hd, List.getElem?_drop]
  constructor
  · intro n l hstart hlast hl
    obtain ⟨i, rfl⟩ := Nat.exists_eq_add_of_lt hstart
    have hi : i < body.length := by omega
    have hindex : 1 + k + i + 1 - 1 = k + (i + 1) := by omega
    rw [hindex, hget, List.getElem?_cons_succ, h.below_eq, List.getElem?_append_left hi] at hl
    have hdeeper := h.body_deeper l (List.mem_of_getElem? hl)
    simpa [isDeeper] using hdeeper
  · have hindex : 1 + k + body.length - 1 = k + body.length := by omega
    rw [hindex, hget]
    rcases List.eq_nil_or_concat body with rfl | ⟨init, final, rfl⟩
    · exact ⟨line, rfl, hline⟩
    · refine ⟨final, ?_, h.body_ends final (by simp)⟩
      rw [h.below_eq]
      simp
  · intro l hl
    have hdrop : lines.drop (1 + k + body.length) = gap ++ behind := by
      rw [Nat.add_assoc, Nat.add_left_comm, ← List.drop_drop, hd, Nat.add_comm 1,
        List.drop_succ_cons, h.below_eq, List.drop_left]
    have hgap : gap.find? (fun line => !line.allBlank) = none := by
      rw [List.find?_eq_none]
      intro x hx
      simp [h.gap_blank x hx]
    rw [hdrop, List.find?_append, hgap, Option.none_or] at hl
    cases hb : behind with
    | nil => simp [hb] at hl
    | cons first rest =>
        have hfirst := h.behind_starts first (by rw [hb]; rfl)
        obtain ⟨hblank, hindent⟩ : first.allBlank = false ∧ first.indent ≤ indent := by
          simpa [isDeeper] using hfirst
        obtain rfl : first = l := by simpa [hb, hblank] using hl
        exact hindent

/-- Where braces do not end a body, a record is its header and the suite under it. -/
theorem extract_isSuite {language : Language} (hb : language.usesBraces = false) (source : Text) :
    let lines := source.split '\n'
    ∀ r ∈ extract language source, ∃ line header, lines[r.lineStart - 1]? = some line ∧
      Header.recognise? language line = some header ∧ header.indent = line.indent ∧
      IsSuite lines line.indent r.lineStart r.lineEnd := by
  intro lines r hr
  have hscan : Scanned language 1 lines (extract language source) := scanned_scan language 1 lines
  obtain ⟨k, line, below, header, hd, hs, rfl⟩ := hscan.origin r hr
  have hindent := Header.indent_of_recognise? hb hs
  have hline : line.allBlank = false := by
    apply eq_false_of_ne_true
    intro hblank
    rw [Header.recognise?_eq_none_of_allBlank language hblank] at hs
    cases hs
  have hfirst : lines[1 + k - 1]? = some line := by
    rw [Nat.add_sub_cancel_left, ← List.head?_drop, hd]
    rfl
  obtain ⟨body, gap, behind, hlayers, hkept⟩ := exists_layers line.indent below
  refine ⟨line, header, hfirst, hs, hindent, ?_⟩
  have hspan : (bodySpan language header line below).kept = body.length := by
    rw [bodySpan, hb, hindent, ← hkept]
    rfl
  simp only [ofHeader, hspan]
  exact isSuite_of_layers hlayers hd hline

def unevenSource : Text :=
  "\tdef f(a):\n \u00A0 b\n\n \t  c\n\u3000\n\n\tdef g(): ...\n  \n\tdef h():\n\t\ty\n ".toList

theorem extract_isSuite_uneven : Language.unknown.usesBraces = false ∧
    (extract .unknown unevenSource).map (fun r => (r.lineStart, r.lineEnd)) =
      [(1, 4), (7, 7), (9, 10)] ∧
    ∀ r ∈ extract .unknown unevenSource, ∃ line header,
      (unevenSource.split '\n')[r.lineStart - 1]? = some line ∧
      Header.recognise? .unknown line = some header ∧ header.indent = line.indent ∧
      IsSuite (unevenSource.split '\n') line.indent r.lineStart r.lineEnd :=
  ⟨rfl, by decide, extract_isSuite rfl unevenSource⟩

end FunctionRecord

end SoloCall
