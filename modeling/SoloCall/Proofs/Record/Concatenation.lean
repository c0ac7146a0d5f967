import Mathlib.Data.List.Forall2
import SoloCall.Proofs.Record.Partition
import SoloCall.Proofs.Record.Span
import SoloCall.Proofs.Text.Split

namespace SoloCall

namespace FunctionRecord

variable {language : Language} {header : Header} {line : Text} {lines below more : List Text}
  {records : List FunctionRecord} {n : Nat}

def lowered (above : Nat) (r : FunctionRecord) : FunctionRecord :=
  { r with lineStart := r.lineStart + above, lineEnd := r.lineEnd + above }

theorem lowered_lowered (a b : Nat) (r : FunctionRecord) :
    (r.lowered a).lowered b = r.lowered (a + b) := by
  simp [lowered, Nat.add_assoc]

theorem scan_lowered (language : Language) (n above skip : Nat) (lines : List Text) :
    scan language (n + above) skip lines = (scan language n skip lines).map (lowered above) := by
  induction lines generalizing n skip with
  | nil => cases skip <;> rfl
  | cons line below ih =>
      have hn : n + above + 1 = n + 1 + above := by omega
      cases skip with
      | succ skip => rw [scan, scan, hn, ih]
      | zero =>
          rw [scan, scan, hn]
          cases hs : Header.recognise? language line with
          | none => exact ih (n + 1) 0
          | some header =>
              simp only [List.map_cons, ih]
              congr 1
              simp only [ofHeader, lowered, FunctionRecord.mk.injEq, true_and, and_true]
              omega

theorem scan_plain (language : Language) (n k : Nat) (lines : List Text)
    (h : ∀ line ∈ lines.take k, Header.recognise? language line = none) :
    scan language n 0 lines = scan language (n + k) 0 (lines.drop k) := by
  induction k generalizing n lines with
  | zero => rfl
  | succ k ih =>
      cases lines with
      | nil => rfl
      | cons line below =>
          have hline := h line (by simp)
          have hbelow := ih (n + 1) below fun l hl => h l (by simp [hl])
          rw [scan, hline, List.drop_succ_cons]
          simp only [hbelow, Nat.add_assoc, Nat.add_comm 1 k]

/-- More lines at the end of a source leave a body as it is: it keeps the same lines, and a further
line that it passes over holds no header and comes after the last line of the source. -/
def Sealed (language : Language) (header : Header) (line : Text) (below more : List Text) : Prop :=
  ∃ extra,
    bodySpan language header line (below ++ more) =
      ⟨(bodySpan language header line below).kept,
        (bodySpan language header line below).passed + extra⟩ ∧
    (extra = 0 ∨ (bodySpan language header line below).passed = below.length ∧
      ∀ l ∈ more.take extra, Header.recognise? language l = none)

theorem Sealed.ofHeader_eq (h : Sealed language header line below more) (n : Nat) :
    ofHeader language n header line (below ++ more) = ofHeader language n header line below := by
  obtain ⟨extra, hspan, -⟩ := h
  have hle := (bodySpan_kept_le_passed language header line below).trans
    (bodySpan_passed_le language header line below)
  simp only [ofHeader, hspan, List.take_append_of_le_length hle]

theorem Sealed.scan_eq (h : Sealed language header line below more) (n : Nat) :
    scan language n (bodySpan language header line (below ++ more)).passed (below ++ more) =
      scan language (n + (bodySpan language header line below).passed) 0
        (below.drop (bodySpan language header line below).passed ++ more) := by
  obtain ⟨extra, hspan, hextra⟩ := h
  have hle := bodySpan_passed_le language header line below
  set passed := (bodySpan language header line below).passed
  rw [hspan, scan_skip]
  simp only
  rcases hextra with rfl | ⟨hend, hplain⟩
  · rw [Nat.add_zero, List.drop_append_of_le_length hle]
  · -- The body took up the source to its end, so what it passes over beyond are lines of the rest.
    have hdrop : (below ++ more).drop (passed + extra) = more.drop extra := by
      rw [hend, List.drop_append]
      simp
    rw [hdrop, hend, List.drop_length, List.nil_append, scan_plain language _ extra more hplain,
      Nat.add_assoc]

theorem Scanned.append (h : Scanned language n lines records)
    (hseam : ∀ k line below header, lines.drop k = line :: below →
      ofHeader language (n + k) header line below ∈ records →
      Sealed language header line below more) :
    scan language n 0 (lines ++ more) = records ++ scan language (n + lines.length) 0 more := by
  induction h with
  | nil n => rfl
  | plain n line below records hn rest ih =>
      have hrest := ih fun k l b hd hk hr => hseam (k + 1) l b hd hk (by
        rwa [Nat.add_assoc, Nat.add_comm 1] at hr)
      rw [List.cons_append, scan, hn]
      simp only [hrest, List.length_cons, Nat.add_assoc, Nat.add_comm 1]
  | record n line below records header hs rest ih =>
      have hfirst : Sealed language header line below more :=
        hseam 0 line below header rfl List.mem_cons_self
      have hle := bodySpan_passed_le language header line below
      set passed := (bodySpan language header line below).passed with hpassed
      have hrest := ih fun k l b hd hk hr => by
        refine hseam (passed + k + 1) l b hd ?_ (List.mem_cons_of_mem _ ?_)
        · rwa [List.drop_succ_cons, ← List.drop_drop]
        · rwa [show n + (passed + k + 1) = n + 1 + passed + k by omega]
      rw [List.cons_append, scan, hs]
      simp only
      rw [hfirst.ofHeader_eq, hfirst.scan_eq, ← hpassed, hrest, List.cons_append]
      congr 3
      simp only [List.length_drop, List.length_cons]
      omega

theorem extract_append_of_sealed {a b : Text}
    (hseam : ∀ k line below header, (a.split '\n').drop k = line :: below →
      ofHeader language (1 + k) header line below ∈ extract language a →
      Sealed language header line below (b.split '\n')) :
    extract language (a ++ '\n' :: b) = extract language a ++
      (extract language b).map (lowered (a.split '\n').length) := by
  have hscan := (scanned_scan language 1 (a.split '\n')).append hseam
  rw [extract, Text.split_append_cons, hscan, scan_lowered]
  rfl

theorem sealed_of_kept_lt (hb : language.usesBraces = true)
    (h : (bodySpan language header line below).kept < below.length) :
    Sealed language header line below more := by
  have hspan : bodySpan language header line (below ++ more) =
      bodySpan language header line below := by
    simp only [bodySpan, hb, if_pos] at h ⊢
    refine braceSpan_congr rfl (fun _ => ?_) fun k hk => ?_
    · cases below with
      | nil => simp at h
      | cons next rest => rfl
    · rw [List.getElem?_append_left (hk.trans_lt h)]
  exact ⟨0, by rw [hspan]; rfl, Or.inl rfl⟩

theorem Scanned.lineEnd_lt_of_getLast (h : Scanned language n lines records) {last : Nat}
    (hlast : ∀ r, records.getLast? = some r → r.lineEnd < last) :
    ∀ r ∈ records, r.lineEnd < last := by
  intro r hr
  obtain ⟨front, s, rfl⟩ := (List.eq_nil_or_concat' records).resolve_left (List.ne_nil_of_mem hr)
  have hs := hlast s (by simp)
  rcases List.mem_append.1 hr with hf | he
  · have hlt := (List.pairwise_append.1 h.pairwise_lt).2.2 r hf s (by simp)
    have hle := h.lineStart_le_lineEnd s (by simp)
    omega
  · rwa [List.mem_singleton.1 he]

theorem extract_append_of_lineEnd_lt (hb : language.usesBraces = true) {a b : Text}
    (hend : ∀ r, (extract language a).getLast? = some r → r.lineEnd < (a.split '\n').length) :
    extract language (a ++ '\n' :: b) = extract language a ++
      (extract language b).map (lowered (a.split '\n').length) := by
  have hscan : Scanned language 1 (a.split '\n') (extract language a) := scanned_scan language 1 _
  refine extract_append_of_sealed fun k line below header hd hr => sealed_of_kept_lt hb ?_
  have hlt := hscan.lineEnd_lt_of_getLast hend _ hr
  have hlength : (a.split '\n').length - k = below.length + 1 := by
    rw [← List.length_drop, hd, List.length_cons]
  simp only [ofHeader] at hlt
  omega

def linesAbove (pieces : List Text) (i : Nat) : Nat :=
  ((pieces.take i).flatMap fun piece => piece.split '\n').length

theorem extract_join (hb : language.usesBraces = true) {pieces : List Text}
    (h : List.Forall₂ (fun piece r => extract language piece = [r] ∧
      r.lineEnd < (piece.split '\n').length) pieces records) :
    extract language (Text.join ['\n'] pieces) =
      records.mapIdx fun i r => r.lowered (linesAbove pieces i) := by
  induction h with
  | nil => cases language <;> rfl
  | cons hpiece hrest ih =>
      rename_i piece r rest others
      obtain ⟨hr, hend⟩ := hpiece
      have hlower : r.lowered (linesAbove (piece :: rest) 0) = r := by simp [linesAbove, lowered]
      rw [List.mapIdx_cons, hlower]
      cases rest with
      | nil =>
          cases hrest
          simpa [Text.join] using hr
      | cons next rest =>
          have hlast : ∀ s, (extract language piece).getLast? = some s →
              s.lineEnd < (piece.split '\n').length := by
            intro s hs
            rw [hr] at hs
            obtain rfl : r = s := by simpa using hs
            exact hend
          have hplace : ∀ i (s : FunctionRecord),
              (s.lowered (linesAbove (next :: rest) i)).lowered (piece.split '\n').length =
                s.lowered (linesAbove (piece :: next :: rest) (i + 1)) := by
            intro i s
            rw [lowered_lowered, linesAbove, linesAbove, List.take_succ_cons, List.flatMap_cons,
              List.length_append, Nat.add_comm]
          rw [Text.join_cons_cons, List.append_assoc, List.singleton_append,
            extract_append_of_lineEnd_lt hb hlast, hr, ih, List.singleton_append]
          congr 1
          apply List.ext_getElem?
          intro i
          simp only [List.getElem?_map, List.getElem?_mapIdx, Option.map_map]
          congr 1
          funext s
          exact hplace i s

/-- Where braces delimit bodies and the last record of the upper source ends before its last line,
the records of the whole are those of both sources. Hence a file made of pieces with one function
each gives their records in order. -/
theorem extract_append_of_usesBraces (language : Language) (hb : language.usesBraces = true) :
    (∀ a b : Text,
      (∀ r, (extract language a).getLast? = some r → r.lineEnd < (a.split '\n').length) →
      extract language (a ++ '\n' :: b) = extract language a ++
        (extract language b).map (lowered (a.split '\n').length)) ∧
    (∀ (pieces : List Text) (records : List FunctionRecord),
      List.Forall₂ (fun piece r => extract language piece = [r] ∧
        r.lineEnd < (piece.split '\n').length) pieces records →
      extract language (Text.join ['\n'] pieces) =
        records.mapIdx fun i r => r.lowered (linesAbove pieces i)) :=
  ⟨fun _ _ hend => extract_append_of_lineEnd_lt hb hend, fun _ _ h => extract_join hb h⟩

def balancedSource : Text :=
  "func (s *Stack) Push(v int) \x7b\n  if v > 0 \x7b\n  \x7d\n\x7d\n".toList

def unbalancedSource : Text := "\x7d\nfunc pop() int \x7b\n\nfunc last(n int)".toList

def pushRecord : FunctionRecord :=
  ⟨"Push".toList, [⟨"v".toList, "int".toList, none⟩], balancedSource.dropLast, 1, 4, .go⟩

theorem extract_append_unbalanced : Language.go.usesBraces = true ∧
    extract .go (balancedSource ++ '\n' :: unbalancedSource) =
      extract .go balancedSource ++ (extract .go unbalancedSource).map (lowered 5) ∧
    extract .go (Text.join ['\n'] [balancedSource, balancedSource]) =
      [pushRecord, pushRecord.lowered 5] := by
  obtain ⟨happend, hjoin⟩ := extract_append_of_usesBraces .go rfl
  refine ⟨rfl, happend balancedSource unbalancedSource (by decide), ?_⟩
  refine hjoin [balancedSource, balancedSource] [pushRecord, pushRecord] (.cons ?_ (.cons ?_ .nil))
  · decide
  · decide

theorem takeWhile_isDeeper_of_flush (indent : Nat) {lines : List Text}
    (hflush : ∀ line, lines.find? (fun l => !l.allBlank) = some line → line.indent = 0) :
    lines.takeWhile (isDeeper indent) = lines.takeWhile Text.allBlank := by
  induction lines with
  | nil => rfl
  | cons line below ih =>
      cases hl : line.allBlank with
      | true =>
          have hd : isDeeper indent line = true := by simp [isDeeper, hl]
          rw [List.takeWhile_cons_of_pos hd, List.takeWhile_cons_of_pos hl, ih]
          intro l h
          exact hflush l (by simpa [hl] using h)
      | false =>
          have h₀ : line.indent = 0 := hflush line (by simp [hl])
          simp [isDeeper, hl, h₀]

theorem rdropWhile_append_of_all {α : Type} {p : α → Bool} (front : List α) {back : List α}
    (h : ∀ x ∈ back, p x = true) : (front ++ back).rdropWhile p = front.rdropWhile p := by
  have hback : back.reverse.dropWhile p = [] := List.dropWhile_eq_nil_iff.2 (by simpa using h)
  simp [List.rdropWhile, List.dropWhile_append, hback]

theorem sealed_of_flush (hb : language.usesBraces = false)
    (hflush : ∀ line, more.find? (fun l => !l.allBlank) = some line → line.indent = 0) :
    Sealed language header line below more := by
  have hmore := takeWhile_isDeeper_of_flush header.indent hflush
  have hblank : ∀ l ∈ more.takeWhile Text.allBlank, l.allBlank = true := fun _ =>
    List.mem_takeWhile_imp
  simp only [Sealed, bodySpan, hb, Bool.false_eq_true, if_false]
  by_cases hall : (below.takeWhile (isDeeper header.indent)).length = below.length
  · have hbelow : below.takeWhile (isDeeper header.indent) = below :=
      (List.takeWhile_prefix _).eq_of_length hall
    have hbody : (below ++ more).takeWhile (isDeeper header.indent) =
        below ++ more.takeWhile Text.allBlank := by
      rw [List.takeWhile_append, if_pos hall, hmore]
    have hkept : (indentSpan header.indent (below ++ more)).kept =
        (indentSpan header.indent below).kept := by
      rw [indentSpan_kept, indentSpan_kept, hbody, rdropWhile_append_of_all below hblank, hbelow]
    have hpassed : (indentSpan header.indent (below ++ more)).passed =
        (indentSpan header.indent below).passed + (more.takeWhile Text.allBlank).length := by
      simp only [indentSpan, hbody, hbelow, List.length_append]
    refine ⟨(more.takeWhile Text.allBlank).length, congrArg₂ Span.mk hkept hpassed,
      Or.inr ⟨hall, ?_⟩⟩
    intro l hl
    rw [← List.prefix_iff_eq_take.1 (List.takeWhile_prefix _)] at hl
    exact Header.recognise?_eq_none_of_allBlank language (hblank l hl)
  · have hbody : (below ++ more).takeWhile (isDeeper header.indent) =
        below.takeWhile (isDeeper header.indent) := by
      rw [List.takeWhile_append, if_neg hall]
    refine ⟨0, ?_, Or.inl rfl⟩
    simp only [indentSpan, hbody, Nat.add_zero]

/-- Where indentation delimits bodies and the lower source is blank or starts, after blank lines,
at the left margin, the records of the whole are those of both sources. -/
theorem extract_append_of_flush (language : Language) (hb : language.usesBraces = false)
    (a b : Text) (hflush : b.allBlank = true ∨
      ∃ c rest, (b.split '\n').find? (fun line => !line.allBlank) = some (c :: rest) ∧
        isBlank c = false) :
    extract language (a ++ '\n' :: b) = extract language a ++
      (extract language b).map (lowered (a.split '\n').length) := by
  refine extract_append_of_sealed fun _ _ _ _ _ _ => sealed_of_flush hb ?_
  intro line hline
  rcases hflush with hblank | ⟨c, rest, hfind, hc⟩
  · have hmem := List.mem_of_find?_eq_some hline
    have hall : line.allBlank = true := List.all_eq_true.2 fun c hc =>
      List.all_eq_true.1 hblank c (Text.mem_of_mem_split hmem hc)
    simpa [hall] using List.find?_some hline
  · obtain rfl : c :: rest = line := Option.some.inj (hfind.symm.trans hline)
    simp [Text.indent, hc]

def deepSource : Text := "class K:\n    def f(self, x):\n        return x\n  \n".toList

def flushSource : Text := "\n\t\ndef g():\n  pass".toList

theorem extract_append_deep : Language.python.usesBraces = false ∧
    extract .python (deepSource ++ '\n' :: flushSource) =
      extract .python deepSource ++ (extract .python flushSource).map (lowered 5) := by
  refine ⟨rfl, extract_append_of_flush .python rfl deepSource flushSource
    (Or.inr ⟨'d', "ef g():".toList, ?_, ?_⟩)⟩
  · decide
  · decide

end FunctionRecord

end SoloCall
