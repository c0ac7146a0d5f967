import SoloCall.Driver.Source
import SoloCall.Proofs.Header.Name
import SoloCall.Proofs.Record.Partition
import SoloCall.Proofs.Text.Lines

namespace SoloCall

namespace Driver

variable {source name t declaration above behind : Text}

/-- A type of one word with at most one star, and the parameters of a function, with the blanks that
stand around its name. -/
structure Prototype where
  type : Text
  star : Text
  gap : Text
  inner : Text
  params : Text
  type_ne_nil : type ≠ []
  type_word : ∀ c ∈ type, isWord c = true
  star_eq : star = [] ∨ star = ['*']
  gap_ne_nil : gap ≠ []
  gap_blank : gap.allBlank = true
  inner_blank : inner.allBlank = true
  params_open : ')' ∉ params

namespace Prototype

variable {p q : Prototype}

def head (p : Prototype) (name : Text) : Text := p.type ++ p.star ++ p.gap ++ name ++ p.inner

def text (p : Prototype) (name : Text) : Text := p.head name ++ '(' :: (p.params ++ [')'])

end Prototype

theorem prototypeRest?_eq_some {rest : Text} (h : prototypeRest? name t = some rest) :
    ∃ gap inner params : Text, rest = gap ++ name ++ inner ++ '(' :: (params ++ [')']) ∧
      gap ≠ [] ∧ gap.allBlank = true ∧ inner.allBlank = true ∧ ')' ∉ params ∧ rest <+: t := by
  induction t generalizing rest with
  | nil => cases h
  | cons c r ih =>
      simp only [prototypeRest?, Option.bind_eq_bind, Option.bind_eq_some_iff,
        Option.guard_eq_some'] at h
      obtain ⟨-, hc, h⟩ := h
      split at h
      · rename_i deeper hdeeper
        obtain rfl := Option.some.inj h
        obtain ⟨gap, inner, params, rfl, -, hgap, hinner, hparams, hprefix⟩ := ih hdeeper
        refine ⟨c :: gap, inner, params, rfl, by simp, ?_, hinner, hparams, ?_⟩
        · rw [Text.allBlank] at hgap ⊢
          rw [List.all_cons, hc, hgap]
          rfl
        · exact (List.prefix_cons_inj c).2 hprefix
      · simp only [Option.bind_eq_some_iff] at h
        obtain ⟨after, hafter, list, hlist, ⟨params, behind⟩, hcut, h⟩ := h
        obtain rfl := Option.some.inj h
        obtain ⟨rfl, hparams⟩ := Text.cut?_eq_some hcut
        have hr : r = name ++ after := Text.after?_eq_some_iff.1 hafter
        have hskip : after.skipBlanks = '(' :: (params ++ ')' :: behind) :=
          Text.after?_eq_some_iff.1 hlist
        have hafter : name ++ after =
            name ++ (after.takeWhile isBlank ++ '(' :: (params ++ ')' :: behind)) := by
          rw [← hskip, Text.skipBlanks, List.takeWhile_append_dropWhile]
        refine ⟨[c], after.takeWhile isBlank, params, by simp, by simp, by simp [Text.allBlank, hc],
          List.all_eq_true.2 fun c => List.mem_takeWhile_imp, hparams, behind, ?_⟩
        rw [hr, hafter]
        simp

theorem isSome_prototypeRest? {gap inner params : Text} (hne : gap ≠ [])
    (hgap : gap.allBlank = true) (hinner : inner.allBlank = true) (hparams : ')' ∉ params)
    (behind : Text) :
    (prototypeRest? name (gap ++ (name ++ (inner ++ '(' :: (params ++ ')' :: behind))))).isSome := by
  have hlist : Text.after? ['('] (Text.skipBlanks (inner ++ '(' :: (params ++ ')' :: behind))) =
      some (params ++ ')' :: behind) := by
    rw [Text.skipBlanks_append_left hinner]
    rfl
  induction gap with
  | nil => exact absurd rfl hne
  | cons c gap ih =>
      obtain ⟨hc, hgap⟩ : isBlank c = true ∧ Text.allBlank gap = true := by
        simpa [Text.allBlank] using hgap
      rw [List.cons_append, prototypeRest?]
      cases hdeeper : prototypeRest? name
          (gap ++ (name ++ (inner ++ '(' :: (params ++ ')' :: behind)))) with
      | some deeper => simp [hc]
      | none =>
          have hnil : gap = [] := by
            by_contra hne
            have hsome := ih hne hgap
            rw [hdeeper] at hsome
            cases hsome
          simp [hnil, hc, Text.after?_append, hlist, Text.cut?_append_cons hparams]

theorem prototypeHere?_star {type rest : Text}
    (hword : t.skipBlanks.word? = some (type, '*' :: rest)) :
    prototypeHere? name t = (prototypeRest? name rest).map fun r => type ++ ['*'] ++ r := by
  rw [prototypeHere?, hword]
  simp only [Option.bind_eq_bind, Option.bind_some]
  cases prototypeRest? name rest <;> rfl

theorem prototypeHere?_bare {type rest : Text} (hword : t.skipBlanks.word? = some (type, rest))
    (hstar : rest.head? ≠ some '*') :
    prototypeHere? name t = (prototypeRest? name rest).map fun r => type ++ [] ++ r := by
  rw [prototypeHere?, hword]
  simp only [Option.bind_eq_bind, Option.bind_some]
  split
  · exact absurd rfl hstar
  · cases prototypeRest? name rest <;> rfl

theorem prototypeHere?_eq_some (h : prototypeHere? name t = some declaration) :
    ∃ p : Prototype, declaration = p.text name ∧ p.text name <+: t.skipBlanks := by
  cases hword : t.skipBlanks.word? with
  | none =>
      rw [prototypeHere?, hword] at h
      cases h
  | some cut =>
      obtain ⟨type, rest⟩ := cut
      obtain ⟨hne, htype, hskip⟩ := Text.word?_eq_some hword
      obtain ⟨star, behind, found, hstar, hrest, hfound, rfl⟩ : ∃ star behind found : Text,
          (star = [] ∨ star = ['*']) ∧ rest = star ++ behind ∧
            prototypeRest? name behind = some found ∧ declaration = type ++ star ++ found := by
        by_cases hs : rest.head? = some '*'
        · obtain ⟨behind, rfl⟩ := List.head?_eq_some_iff.1 hs
          rw [prototypeHere?_star hword] at h
          obtain ⟨found, hfound, rfl⟩ := Option.map_eq_some_iff.1 h
          exact ⟨['*'], behind, found, Or.inr rfl, rfl, hfound, rfl⟩
        · rw [prototypeHere?_bare hword hs] at h
          obtain ⟨found, hfound, rfl⟩ := Option.map_eq_some_iff.1 h
          exact ⟨[], rest, found, Or.inl rfl, rfl, hfound, rfl⟩
      obtain ⟨gap, inner, params, rfl, hgapNe, hgap, hinner, hparams, hprefix⟩ :=
        prototypeRest?_eq_some hfound
      refine ⟨⟨type, star, gap, inner, params, hne, htype, hstar, hgapNe, hgap, hinner, hparams⟩,
        ?_, ?_⟩
      · simp [Prototype.text, Prototype.head]
      · obtain ⟨tail, rfl⟩ := hprefix
        exact ⟨tail, by simp [Prototype.text, Prototype.head, hskip, hrest]⟩

theorem isSome_prototypeHere? (p : Prototype) (h : p.text name <+: t.skipBlanks) :
    (prototypeHere? name t).isSome := by
  obtain ⟨behind, hskip⟩ := h
  have hrest : (prototypeRest? name
      (p.gap ++ (name ++ (p.inner ++ '(' :: (p.params ++ ')' :: behind))))).isSome :=
    isSome_prototypeRest? p.gap_ne_nil p.gap_blank p.inner_blank p.params_open behind
  obtain ⟨c, gap, hgap⟩ := List.exists_cons_of_ne_nil p.gap_ne_nil
  have hc : isBlank c = true := List.all_eq_true.1 p.gap_blank c (by simp [hgap])
  rcases p.star_eq with hstar | hstar
  · have hword : t.skipBlanks.word? = some (p.type,
        p.gap ++ (name ++ (p.inner ++ '(' :: (p.params ++ ')' :: behind)))) := by
      have hshape : t.skipBlanks = p.type ++ c ::
          (gap ++ (name ++ (p.inner ++ '(' :: (p.params ++ ')' :: behind)))) := by
        simp [← hskip, Prototype.text, Prototype.head, hstar, hgap]
      rw [hshape, Text.word?_append_cons p.type_ne_nil p.type_word (Text.isWord_of_isBlank hc), hgap]
      rfl
    have hbare : (p.gap ++ (name ++ (p.inner ++ '(' :: (p.params ++ ')' :: behind)))).head? ≠
        some '*' := by
      rw [hgap]
      rintro heq
      obtain rfl := Option.some.inj heq
      cases hc
    rw [prototypeHere?_bare hword hbare, Option.isSome_map]
    exact hrest
  · have hword : t.skipBlanks.word? = some (p.type,
        '*' :: (p.gap ++ (name ++ (p.inner ++ '(' :: (p.params ++ ')' :: behind))))) := by
      have hshape : t.skipBlanks = p.type ++ '*' ::
          (p.gap ++ (name ++ (p.inner ++ '(' :: (p.params ++ ')' :: behind)))) := by
        simp [← hskip, Prototype.text, Prototype.head, hstar]
      rw [hshape, Text.word?_append_cons p.type_ne_nil p.type_word rfl]
    rw [prototypeHere?_star hword, Option.isSome_map]
    exact hrest

theorem mem_afterLineEnds_iff {start : Text} :
    start ∈ afterLineEnds t ↔ ∃ above, t = above ++ '\n' :: start := by
  induction t with
  | nil => simp [afterLineEnds]
  | cons c r ih =>
      have htail : (∃ above : Text, c :: r = above ++ '\n' :: start) ↔
          (c = '\n' ∧ r = start) ∨ ∃ above : Text, r = above ++ '\n' :: start := by
        constructor
        · rintro ⟨above, h⟩
          cases above with
          | nil => exact Or.inl (List.cons.inj h)
          | cons d above => exact Or.inr ⟨above, (List.cons.inj h).2⟩
        · rintro (⟨rfl, rfl⟩ | ⟨above, rfl⟩)
          · exact ⟨[], rfl⟩
          · exact ⟨c :: above, rfl⟩
      rw [htail, afterLineEnds]
      split
      · rename_i hc
        rw [List.mem_cons, ih]
        simp [hc, eq_comm]
      · rename_i hc
        simp [ih, hc]

theorem mem_lineStarts_iff {start : Text} : start ∈ lineStarts t ↔
    ∃ above, t = above ++ start ∧ (above = [] ∨ above.getLast? = some '\n') := by
  rw [lineStarts, List.mem_cons, mem_afterLineEnds_iff]
  constructor
  · rintro (rfl | ⟨above, rfl⟩)
    · exact ⟨[], rfl, Or.inl rfl⟩
    · exact ⟨above ++ ['\n'], by simp, by simp⟩
  · rintro ⟨above, rfl, rfl | hlast⟩
    · exact Or.inl rfl
    · obtain ⟨init, rfl⟩ := List.getLast?_eq_some_iff.1 hlast
      exact Or.inr ⟨init, by simp⟩

theorem pairwise_suffix_lineStarts (t : Text) :
    (lineStarts t).Pairwise fun a b => b <:+ a := by
  have hafter (t : Text) : ∀ start ∈ afterLineEnds t, start <:+ t := by
    intro start h
    obtain ⟨above, rfl⟩ := mem_afterLineEnds_iff.1 h
    exact ⟨above ++ ['\n'], by simp⟩
  refine List.pairwise_cons.2 ⟨hafter t, ?_⟩
  induction t with
  | nil => exact .nil
  | cons c r ih =>
      rw [afterLineEnds]
      split
      · exact List.pairwise_cons.2 ⟨hafter r, ih⟩
      · exact ih

namespace Prototype

/-- A source cut around a prototype that is first on its line but for blanks. -/
structure StandsIn (p : Prototype) (source name above behind : Text) : Prop where
  source_eq : source = above ++ (p.text name ++ behind)
  line_blank : above.unfinished.allBlank = true

structure IsFirst (p : Prototype) (source name above behind : Text) : Prop
    extends StandsIn p source name above behind where
  first : ∀ (q : Prototype) (before rest : Text), q.StandsIn source name before rest →
    above.length ≤ before.length

variable {p : Prototype}

theorem skipBlanks_text_append (p : Prototype) (name behind : Text) :
    Text.skipBlanks (p.text name ++ behind) = p.text name ++ behind := by
  obtain ⟨c, rest, hc⟩ := List.exists_cons_of_ne_nil p.type_ne_nil
  have hword : isWord c = true := p.type_word c (by simp [hc])
  simp only [text, head, hc, List.cons_append]
  exact Text.skipBlanks_cons_of_not_blank (Text.isBlank_of_isWord hword) _

theorem StandsIn.exists_lineStart (h : p.StandsIn source name above behind) :
    ∃ start ∈ lineStarts source, (prototypeHere? name start).isSome ∧
      start.skipBlanks = p.text name ++ behind := by
  have hskip : Text.skipBlanks (above.unfinished ++ (p.text name ++ behind)) =
      p.text name ++ behind := by
    rw [Text.skipBlanks_append_left h.line_blank, skipBlanks_text_append]
  have hprefix : p.text name <+: Text.skipBlanks (above.unfinished ++ (p.text name ++ behind)) := by
    rw [hskip]
    exact List.prefix_append _ _
  refine ⟨above.unfinished ++ (p.text name ++ behind), ?_, isSome_prototypeHere? p hprefix, hskip⟩
  rw [mem_lineStarts_iff]
  refine ⟨above.finished, ?_, ?_⟩
  · rw [← List.append_assoc, Text.finished_append_unfinished]
    exact h.source_eq
  · rcases above.finished_cases with hf | ⟨front, hf⟩
    · exact Or.inl hf
    · exact Or.inr (by simp [hf])

end Prototype

theorem forwardDeclaration?_eq_some (h : forwardDeclaration? source name = some declaration) :
    ∃ (p : Prototype) (above behind : Text), declaration = p.text name ++ [';'] ∧
      p.IsFirst source name above behind := by
  rw [forwardDeclaration?] at h
  split at h
  · cases h
  · obtain ⟨found, hfound, rfl⟩ := Option.map_eq_some_iff.1 h
    obtain ⟨before, start, after, hstarts, hhere, hbefore⟩ := List.findSome?_eq_some_iff.1 hfound
    obtain ⟨p, rfl, behind, hskip⟩ := prototypeHere?_eq_some hhere
    have hmem : start ∈ lineStarts source := by simp [hstarts]
    obtain ⟨front, hsource, hfront⟩ := mem_lineStarts_iff.1 hmem
    have hstart : start = start.takeWhile isBlank ++ (p.text name ++ behind) := by
      rw [hskip, Text.skipBlanks, List.takeWhile_append_dropWhile]
    have hplace : source = front ++ start.takeWhile isBlank ++ (p.text name ++ behind) := by
      rw [List.append_assoc, ← hstart, hsource]
    have hblank : Text.allBlank (start.takeWhile isBlank) = true :=
      List.all_eq_true.2 fun c => List.mem_takeWhile_imp
    refine ⟨p, front ++ start.takeWhile isBlank, behind, rfl, ⟨hplace, ?_⟩, ?_⟩
    · rw [Text.unfinished_append hfront]
      exact Text.allBlank_unfinished hblank
    · intro q other rest hq
      obtain ⟨start', hmem', hhere', hskip'⟩ := hq.exists_lineStart
      have hsuffix : start' <:+ start := by
        have hpairs := pairwise_suffix_lineStarts source
        rw [hstarts] at hmem' hpairs
        rcases List.mem_append.1 hmem' with hb | ha
        · rw [hbefore start' hb] at hhere'
          cases hhere'
        · rcases List.mem_cons.1 ha with rfl | ha
          · exact List.suffix_rfl
          · exact (List.pairwise_cons.1 (List.pairwise_append.1 hpairs).2.1).1 start' ha
      have hle := (Text.skipBlanks_suffix hsuffix).length_le
      rw [hskip', ← hskip] at hle
      have hlength := congrArg List.length (hplace.symm.trans hq.source_eq)
      simp only [List.length_append] at hlength hle ⊢
      omega

/-- The text is the type, the name and the parameters of the header on this line, with a semicolon
behind them. -/
def Declares (line : Text) (header : Header) (declaration : Text) : Prop :=
  ∃ (p : Prototype) (front rest : Text), p.params = header.params ∧
    line = front ++ p.text header.name ++ rest ∧ declaration = p.text header.name ++ [';']

theorem exists_cut?_of_declarator? {line : Text} {header : Header}
    (h : Header.declarator? line = some header) :
    ∃ k, Header.cut? line = some k ∧ header.params = k.inside ∧
      header.name = k.front.trimEnd.endWhile isWord := by
  simp only [Header.declarator?, Option.bind_eq_bind, Option.bind_eq_some_iff] at h
  obtain ⟨k, hk, -, -, words, -, -, -, -, -, h⟩ := h
  obtain rfl := Option.some.inj h
  exact ⟨k, hk, rfl, rfl⟩

namespace Prototype

variable {p : Prototype}

theorem endWhile_head (p : Prototype) (hne : name ≠ []) (hname : ∀ c ∈ name, isWord c = true)
    (front : Text) : (front ++ p.head name).trimEnd.endWhile isWord = name := by
  have hblank (w : Text) (hw : w.allBlank = true) : ∀ c ∈ w, isBlank c = true :=
    List.all_eq_true.1 hw
  have htrim : (front ++ p.head name).trimEnd = front ++ p.type ++ p.star ++ p.gap ++ name := by
    have hshape : front ++ p.head name = front ++ p.type ++ p.star ++ p.gap ++ name ++ p.inner := by
      simp [head]
    rw [hshape, Text.trimEnd, Text.dropEndWhile_append_of_all (hblank p.inner p.inner_blank)]
    apply Text.dropEndWhile_eq_self
    intro c hc
    rw [Text.getLast?_append_left hne] at hc
    exact Text.isBlank_of_isWord (hname c (List.mem_of_getLast? hc))
  rw [htrim]
  apply Text.endWhile_append_of_getLast? _ hname
  intro c hc
  rw [Text.getLast?_append_left p.gap_ne_nil] at hc
  exact Text.isWord_of_isBlank (hblank p.gap p.gap_blank c (List.mem_of_getLast? hc))

theorem not_mem_head (p : Prototype) (hname : ∀ c ∈ name, isWord c = true) {c : Char}
    (hword : isWord c = false) (hblank : isBlank c = false) (hstar : c ≠ '*') :
    c ∉ p.head name := by
  have hstarNot : c ∉ p.star := by rcases p.star_eq with h | h <;> simp [h, hstar]
  have hnot (w : Text) (hw : ∀ c ∈ w, isWord c = true) : c ∉ w := by
    intro hc
    rw [hw c hc] at hword
    cases hword
  simp only [head, List.mem_append, not_or]
  exact ⟨⟨⟨⟨hnot p.type p.type_word, hstarNot⟩, Text.not_mem_of_allBlank p.gap_blank hblank⟩,
    hnot name hname⟩, Text.not_mem_of_allBlank p.inner_blank hblank⟩

theorem declares_of_recognise? (hne : name ≠ []) (hname : ∀ c ∈ name, isWord c = true)
    (hblank : above.unfinished.allBlank = true) {header : Header}
    (h : Header.recognise? .c (Text.lineAround above (p.text name ++ behind)) = some header) :
    header.name = name ∧ header.params = p.params ∧
      ∃ rest, Text.lineAround above (p.text name ++ behind) =
        above.unfinished ++ p.text name ++ rest := by
  obtain ⟨k, hk, hparams, hfound⟩ := exists_cut?_of_declarator? h
  obtain ⟨hline, hopen, hclose⟩ := Header.cut?_eq_some hk
  set tail := (p.text name ++ behind).dropWhile (· ≠ '\n') with htail
  have hfront : '(' ∉ above.unfinished ++ p.head name := by
    rw [List.mem_append, not_or]
    exact ⟨Text.not_mem_of_allBlank hblank rfl, p.not_mem_head hname rfl rfl (by decide)⟩
  have hwhole : k.front ++ '(' :: (k.inside ++ ')' :: (k.rest ++ tail)) =
      above.unfinished ++ p.head name ++ '(' :: (p.params ++ ')' :: behind) := by
    calc k.front ++ '(' :: (k.inside ++ ')' :: (k.rest ++ tail))
        = Text.lineAround above (p.text name ++ behind) ++ tail := by rw [hline]; simp
      _ = above.unfinished ++ (p.text name ++ behind) := by
        rw [Text.lineAround, htail, List.append_assoc, List.takeWhile_append_dropWhile]
      _ = above.unfinished ++ p.head name ++ '(' :: (p.params ++ ')' :: behind) := by simp [text]
  have hfirst := Text.cut?_append_cons hopen (k.inside ++ ')' :: (k.rest ++ tail))
  rw [hwhole, Text.cut?_append_cons hfront] at hfirst
  obtain ⟨hk, hbehind⟩ := Prod.mk.inj (Option.some.inj hfirst)
  have hsecond := Text.cut?_append_cons hclose (k.rest ++ tail)
  rw [← hbehind, Text.cut?_append_cons p.params_open] at hsecond
  obtain ⟨hinside, -⟩ := Prod.mk.inj (Option.some.inj hsecond)
  refine ⟨?_, by rw [hparams, hinside], k.rest, ?_⟩
  · rw [hfound, ← hk, p.endWhile_head hne hname]
  · rw [hline, ← hk, ← hinside]
    simp [text]

end Prototype

theorem isWord_of_mem_extract {record : FunctionRecord}
    (h : record ∈ FunctionRecord.extract .c source) :
    record.name ≠ [] ∧ ∀ c ∈ record.name, isWord c = true := by
  obtain ⟨line, header, -, hheader, hname, -, -⟩ :=
    (FunctionRecord.scanned_scan .c 1 (source.split '\n')).headed record h
  obtain ⟨⟨front, gap, rest, hplaced, -, -⟩, -⟩ := Header.declarator?_places hheader
  rw [hname]
  exact ⟨hplaced.name_ne_nil, hplaced.name_word⟩

/-- The declaration of an extracted function is the first prototype that starts a line, closed by a
semicolon. If its line is a header, it is one of this function, and the declaration is its own. -/
theorem forwardDeclaration?_declares {record : FunctionRecord}
    (hr : record ∈ FunctionRecord.extract .c source)
    (h : forwardDeclaration? source record.name = some declaration) :
    ∃ (p : Prototype) (above behind : Text),
      p.IsFirst source record.name above behind ∧ declaration = p.text record.name ++ [';'] ∧
      Text.lineAround above (p.text record.name ++ behind) ∈ source.split '\n' ∧
      ∀ header,
        Header.recognise? .c (Text.lineAround above (p.text record.name ++ behind)) = some header →
        header.name = record.name ∧
          Declares (Text.lineAround above (p.text record.name ++ behind)) header declaration := by
  obtain ⟨hne, hname⟩ := isWord_of_mem_extract hr
  obtain ⟨p, above, behind, rfl, hp⟩ := forwardDeclaration?_eq_some h
  refine ⟨p, above, behind, hp, rfl, ?_, ?_⟩
  · have hmem := Text.lineAround_mem_split above (p.text record.name ++ behind)
    rwa [← hp.source_eq] at hmem
  · intro header hheader
    obtain ⟨hfound, hparams, rest, hline⟩ :=
      Prototype.declares_of_recognise? hne hname hp.line_blank hheader
    refine ⟨hfound, p, above.unfinished, rest, hparams.symm, ?_, ?_⟩
    · rw [hfound]
      exact hline
    · rw [hfound]

def halfSource : Text := "double half(double x) \x7b\n    return x / 2;\n\x7d\n".toList

theorem forwardDeclaration?_declares_half : ∃ record ∈ FunctionRecord.extract .c halfSource,
    forwardDeclaration? halfSource record.name = some "double half(double x);".toList ∧
      ∃ line ∈ halfSource.split '\n', ∃ header, Header.recognise? .c line = some header ∧
        header.name = record.name ∧ Declares line header "double half(double x);".toList := by
  obtain ⟨record, hr, hname, hdeclared⟩ : ∃ record ∈ FunctionRecord.extract .c halfSource,
      record.name = "half".toList ∧
        forwardDeclaration? halfSource record.name = some "double half(double x);".toList := by
    decide
  obtain ⟨p, above, behind, hp, -, hmem, hheader⟩ := forwardDeclaration?_declares hr hdeclared
  have hstart : above = [] := by
    let q : Prototype := ⟨"double".toList, [], [' '], [], "double x".toList, by simp,
      List.all_eq_true.1 rfl, Or.inl rfl, by simp, rfl, rfl, by decide⟩
    have hq : q.StandsIn halfSource record.name [] " \x7b\n    return x / 2;\n\x7d\n".toList := by
      rw [hname]
      exact ⟨by decide +kernel, rfl⟩
    exact List.length_eq_zero_iff.1 (Nat.le_zero.1 (hp.first q [] _ hq))
  subst hstart
  have hsource : halfSource = p.text record.name ++ behind := hp.source_eq
  rw [← hsource] at hmem hheader
  have hline : Header.recognise? .c (Text.lineAround [] halfSource) =
      some ⟨"half".toList, "double x".toList, 0⟩ := by rfl
  exact ⟨record, hr, hdeclared, _, hmem, _, hline, hheader _ hline⟩

def callSource : Text :=
  ("int twice(int x) \x7b\n    return add(x, x);\n\x7d\n" ++
    "int add(int a, int b) \x7b\n    return a + b;\n\x7d\n").toList

/-- A return statement has the shape of a prototype, and is taken for the function. -/
theorem forwardDeclaration?_ofCall : ¬ ∀ (source declaration : Text) (record : FunctionRecord),
    record ∈ FunctionRecord.extract .c source →
    forwardDeclaration? source record.name = some declaration →
    ∃ line ∈ source.split '\n', ∃ header, Header.recognise? .c line = some header ∧
      header.name = record.name ∧ Declares line header declaration := by
  intro hall
  obtain ⟨record, hr, hname, hdeclared⟩ : ∃ record ∈ FunctionRecord.extract .c callSource,
      record.name = "add".toList ∧
        forwardDeclaration? callSource record.name = some "return add(x, x);".toList := by
    decide
  obtain ⟨line, hline, header, hheader, hsame, p, -, -, hparams, -, hdeclaration⟩ :=
    hall callSource _ record hr hdeclared
  have honly : ∀ line ∈ callSource.split '\n', ∀ header ∈ Header.recognise? .c line,
      header.name = "add".toList → header.params = "int a, int b".toList := by decide
  have hend : "int a, int b);".toList <:+ "return add(x, x);".toList := by
    rw [hdeclaration, Prototype.text, hparams, honly line hline header hheader (hsame.trans hname)]
    exact ⟨p.head header.name ++ ['('], by simp⟩
  revert hend
  decide

end Driver

end SoloCall
