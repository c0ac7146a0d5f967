import SoloCall.Proofs.Record.Outline
import SoloCall.Proofs.Record.Span

namespace SoloCall

namespace Header

def shifted (language : Language) (shift : Nat) (header : Header) : Header :=
  if language.usesBraces then header else { header with indent := header.indent + shift }

theorem shifted_zero (language : Language) : shifted language 0 = id := by
  funext header
  simp [shifted]

theorem shifted_name (language : Language) (shift : Nat) (header : Header) :
    (header.shifted language shift).name = header.name := by
  rw [shifted]
  split <;> rfl

theorem shifted_params (language : Language) (shift : Nat) (header : Header) :
    (header.shifted language shift).params = header.params := by
  rw [shifted]
  split <;> rfl

theorem shifted_indent {language : Language} (hb : language.usesBraces = false) (shift : Nat)
    (header : Header) : (header.shifted language shift).indent = header.indent + shift := by
  simp [shifted, hb]

theorem indent_of_recognise? {language : Language} {line : Text} {header : Header}
    (hb : language.usesBraces = false) (hs : recognise? language line = some header) :
    header.indent = line.indent := by
  have hs : suite? line = some header := by cases language <;> first | exact hs | cases hb
  simp only [suite?, Option.bind_eq_bind, Option.bind_eq_some_iff] at hs
  obtain ⟨k, -, words, -, hs⟩ := hs
  split at hs
  · simp only [Option.bind_eq_some_iff] at hs
    obtain ⟨-, -, hs⟩ := hs
    obtain rfl := Option.some.inj hs
    rfl
  · cases hs

end Header

namespace FunctionRecord

variable {language : Language} {lines lines' : List Text} {records : List FunctionRecord} {n : Nat}

def headerLine (r : FunctionRecord) : Text := r.code.takeWhile (· ≠ '\n')

def openingLine (r : FunctionRecord) : Nat :=
  if r.language.usesBraces && !r.headerLine.contains '{' then r.lineStart + 1 else r.lineStart

def Inner (r : FunctionRecord) (number : Nat) : Prop := r.openingLine < number ∧ number ≤ r.lineEnd

theorem Inner.lineStart_lt {r : FunctionRecord} {number : Nat} (h : r.Inner number) :
    r.lineStart < number := by
  have hlt := h.1
  rw [openingLine] at hlt
  split at hlt <;> omega

theorem headerLine_ofHeader {header : Header} {line : Text} (h : '\n' ∉ line) (n : Nat)
    (below : List Text) : (ofHeader language n header line below).headerLine = line := by
  have hall : ∀ c ∈ line, decide (c ≠ '\n') = true := by
    intro c hc
    simpa using fun he : c = '\n' => h (he ▸ hc)
  simp only [headerLine, ofHeader]
  cases below.take (bodySpan language header line below).kept with
  | nil => exact List.takeWhile_eq_self_iff.2 hall
  | cons next rest =>
      rw [Text.join_cons_cons, List.append_assoc, List.takeWhile_append_of_pos hall]
      simp

/-- The line as it counts within a body under a header of that indent; the second stands `shift`
blanks deeper, as does its header. -/
def CountsAs (language : Language) (shift indent : Nat) (line line' : Text) : Prop :=
  if language.usesBraces then line'.count '{' = line.count '{' ∧ line'.count '}' = line.count '}'
  else layer (indent + shift) line' = layer indent line

theorem bodySpan_congr {shift : Nat} {header header' : Header} {line line' : Text}
    {below below' : List Text} (hlength : below'.length = below.length)
    (hindent : language.usesBraces = false → header'.indent = header.indent + shift)
    (hopen : line'.contains '{' = line.contains '{')
    (hlone : language.usesBraces = true → line.contains '{' = false →
      startsLone below' = startsLone below)
    (hbody : ∀ k ≤ (bodySpan language header line below).passed, ∀ x y, below[k]? = some x →
      below'[k]? = some y → CountsAs language shift header.indent x y) :
    bodySpan language header' line' below' = bodySpan language header line below := by
  have hmap {β : Type} {f f' : Text → β} {k : Nat}
      (h : ∀ x y, below[k]? = some x → below'[k]? = some y → f' y = f x) :
      below'[k]?.map f' = below[k]?.map f := by
    rcases Nat.lt_or_ge k below.length with hk | hk
    · have hx := List.getElem?_eq_getElem hk
      have hy := List.getElem?_eq_getElem (hlength.symm ▸ hk : k < below'.length)
      rw [hx, hy, Option.map_some, Option.map_some, h _ _ hx hy]
    · rw [List.getElem?_eq_none hk, List.getElem?_eq_none (hlength.symm ▸ hk)]
      rfl
  cases hb : language.usesBraces with
  | true =>
      simp only [bodySpan, CountsAs, hb, if_pos] at hbody ⊢
      refine braceSpan_congr hopen (hlone hb) fun k hk => hmap fun x y hx hy => ?_
      obtain ⟨ho, hc⟩ := hbody k hk x y hx hy
      rw [braceBalance, braceBalance, ho, hc]
  | false =>
      simp only [bodySpan, CountsAs, hb, Bool.false_eq_true, if_false] at hbody ⊢
      refine indentSpan_congr fun k hk => hmap fun x y hx hy => ?_
      rw [hindent hb]
      exact hbody k hk x y hx hy

structure SameLine (language : Language) (shift : Nat) (line line' : Text) : Prop where
  header : Header.recognise? language line' =
    (Header.recognise? language line).map (Header.shifted language shift)
  trim : line'.trim = line.trim
  opening : line'.count '{' = line.count '{'
  closing : line'.count '}' = line.count '}'
  blank : line'.allBlank = line.allBlank
  indent : line.allBlank = false → line'.indent = line.indent + shift

theorem SameLine.refl (language : Language) (line : Text) : SameLine language 0 line line where
  header := by simp [Header.shifted_zero]
  trim := rfl
  opening := rfl
  closing := rfl
  blank := rfl
  indent _ := rfl

theorem SameLine.countsAs {shift : Nat} {line line' : Text}
    (h : SameLine language shift line line') (indent : Nat) :
    CountsAs language shift indent line line' := by
  rw [CountsAs]
  split
  · exact ⟨h.opening, h.closing⟩
  · simp only [layer, isDeeper, h.blank, Prod.mk.injEq, and_true]
    cases hl : line.allBlank with
    | true => rfl
    | false => simp [h.indent hl]

theorem SameLine.contains {shift : Nat} {line line' : Text}
    (h : SameLine language shift line line') : line'.contains '{' = line.contains '{' := by
  have hiff : '{' ∈ line' ↔ '{' ∈ line := by
    rw [← List.count_pos_iff, ← List.count_pos_iff, h.opening]
  simp [hiff]

theorem Scanned.lt_of_inner (h : Scanned language n lines records) {r : FunctionRecord}
    (hr : r ∈ records) {number : Nat} (hi : r.Inner number) : n < number :=
  (h.first_le r hr).trans_lt hi.lineStart_lt

/-- The lines of the second source read as those of the first, or lie in its bodies and count
there as much. -/
structure Likewise (language : Language) (shift n : Nat) (records : List FunctionRecord)
    (lines lines' : List Text) : Prop where
  length_eq : lines'.length = lines.length
  line : ∀ i x y, lines[i]? = some x → lines'[i]? = some y → SameLine language shift x y ∨
    ∃ r ∈ records, r.Inner (n + i) ∧ CountsAs language shift r.headerLine.indent x y

namespace Likewise

variable {shift : Nat} {line line' : Text} {below below' : List Text}

theorem drop (h : Likewise language shift n records lines lines') (k : Nat)
    {others : List FunctionRecord}
    (hothers : ∀ r ∈ records, n + k ≤ r.lineEnd → r ∈ others) :
    Likewise language shift (n + k) others (lines.drop k) (lines'.drop k) where
  length_eq := by rw [List.length_drop, List.length_drop, h.length_eq]
  line := by
    intro i x y hx hy
    rw [List.getElem?_drop] at hx hy
    refine (h.line (k + i) x y hx hy).imp_right ?_
    rintro ⟨r, hr, hinner, hc⟩
    rw [← Nat.add_assoc] at hinner
    exact ⟨r, hothers r hr ((Nat.le_add_right _ i).trans hinner.2), hinner, hc⟩

theorem sameLine (h : Likewise language shift n records (line :: below) (line' :: below'))
    (hscan : Scanned language n (line :: below) records) : SameLine language shift line line' := by
  refine (h.line 0 line line' rfl rfl).resolve_right ?_
  rintro ⟨r, hr, hinner, -⟩
  exact absurd (hscan.lt_of_inner hr hinner) (Nat.lt_irrefl n)

theorem bodySpan_eq {header : Header}
    (h : Likewise language shift n (ofHeader language n header line below :: records)
      (line :: below) (line' :: below'))
    (hs : Header.recognise? language line = some header) (hbreak : '\n' ∉ line)
    (hsame : SameLine language shift line line')
    (hlater : ∀ r ∈ records, ∀ number, r.Inner number →
      n + 1 + (bodySpan language header line below).passed < number) :
    bodySpan language (header.shifted language shift) line' below' =
      bodySpan language header line below := by
  have hlength : below'.length = below.length := by simpa using h.length_eq
  have hline : (ofHeader language n header line below).headerLine = line :=
    headerLine_ofHeader hbreak n below
  set first := ofHeader language n header line below
  -- Up to the line behind the body, no later record has opened one.
  have hbody : ∀ k ≤ (bodySpan language header line below).passed, ∀ x y, below[k]? = some x →
      below'[k]? = some y → SameLine language shift x y ∨
        first.Inner (n + k + 1) ∧ CountsAs language shift line.indent x y := by
    intro k hk x y hx hy
    refine (h.line (k + 1) x y (by simpa using hx) (by simpa using hy)).imp_right ?_
    rintro ⟨r, hr, hinner, hc⟩
    rcases List.mem_cons.1 hr with rfl | hr
    · exact ⟨hinner, hline ▸ hc⟩
    · have hlt := hlater r hr _ hinner
      omega
  have hlone (hb : language.usesBraces = true) (hn : line.contains '{' = false) :
      startsLone below' = startsLone below := by
    have hopening : first.openingLine = n + 1 := by
      have hl : first.language = language := rfl
      rw [openingLine, hl, hb, hline, hn]
      rfl
    cases below with
    | nil => rw [List.length_eq_zero_iff.1 hlength]
    | cons next rest =>
        obtain ⟨next', rest', rfl⟩ := List.exists_cons_of_length_eq_add_one hlength
        have hnext : SameLine language shift next next' := by
          refine (hbody 0 (Nat.zero_le _) next next' rfl rfl).resolve_right ?_
          rintro ⟨⟨hlt, -⟩, -⟩
          omega
        simp only [startsLone, List.head?_cons, Option.any_some, hnext.trim]
  refine bodySpan_congr hlength (fun hb => Header.shifted_indent hb shift header) hsame.contains
    hlone fun k hk x y hx hy => ?_
  rcases hbody k hk x y hx hy with hxy | ⟨-, hxy⟩
  · exact hxy.countsAs header.indent
  · cases hb : language.usesBraces with
    | true => simpa only [CountsAs, hb, if_pos] using hxy
    | false => rwa [Header.indent_of_recognise? hb hs]

end Likewise

/-- Whether a line within a body is a header does not matter: no scan looks at it. -/
theorem Scanned.inStep {shift : Nat} (h : Scanned language n lines records)
    (hbreak : ∀ line ∈ lines, '\n' ∉ line)
    (hlike : Likewise language shift n records lines lines') : InStep language lines lines' := by
  induction h generalizing lines' with
  | nil n =>
      obtain rfl := List.length_eq_zero_iff.1 hlike.length_eq
      exact .nil
  | plain n line below records hn rest ih =>
      obtain ⟨line', below', rfl⟩ := List.exists_cons_of_length_eq_add_one hlike.length_eq
      have hsame := hlike.sameLine (.plain n line below records hn rest)
      have hn' : Header.recognise? language line' = none := by
        rw [hsame.header, hn, Option.map_none]
      refine .plain line line' below below' hn hn' (ih ?_ (hlike.drop 1 fun r hr _ => hr))
      exact fun l hl => hbreak l (List.mem_cons_of_mem _ hl)
  | record n line below records header hs rest ih =>
      obtain ⟨line', below', rfl⟩ := List.exists_cons_of_length_eq_add_one hlike.length_eq
      have hsame := hlike.sameLine (.record n line below records header hs rest)
      have hs' : Header.recognise? language line' = some (header.shifted language shift) := by
        rw [hsame.header, hs, Option.map_some]
      have hspan := hlike.bodySpan_eq hs (hbreak line List.mem_cons_self) hsame
        fun r hr number hi => rest.lt_of_inner hr hi
      have hrest : Likewise language shift (n + 1 + (bodySpan language header line below).passed)
          records (below.drop (bodySpan language header line below).passed)
          (below'.drop (bodySpan language header line below).passed) := by
        have hkept := bodySpan_kept_le_passed language header line below
        rw [Nat.add_assoc, Nat.add_comm 1]
        refine hlike.drop _ fun r hr hle => ?_
        rcases List.mem_cons.1 hr with rfl | hr
        · simp only [ofHeader] at hle
          omega
        · exact hr
      refine .record line line' below below' header _ hs hs' (Header.shifted_name ..)
        (Header.shifted_params ..) hspan (ih ?_ hrest)
      exact fun l hl => hbreak l (List.mem_cons_of_mem _ (List.mem_of_mem_drop hl))

end FunctionRecord

end SoloCall
