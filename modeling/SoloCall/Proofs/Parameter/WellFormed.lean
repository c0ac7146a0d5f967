import SoloCall.Proofs.Parameter.Concatenation
import SoloCall.Proofs.Parameter.Shape

namespace SoloCall.Parameter

variable {language : Language} {raw t u untyped : Text} {p : Parameter}

theorem IsPiece.of_trim (hne : t.trim ≠ []) (hcomma : ',' ∉ t) : IsPiece t.trim where
  ne_nil := hne
  trim_eq := Text.trim_trim t
  comma_notMem hc := hcomma (Text.mem_of_mem_trim hc)

theorem isPiece_of_mem_declarations (h : t ∈ declarations raw) : IsPiece t := by
  obtain ⟨hmem, hne⟩ := List.mem_filter.1 h
  obtain ⟨piece, hpiece, rfl⟩ := List.mem_map.1 hmem
  exact .of_trim (by simpa using hne) (Text.not_mem_of_mem_split hpiece)

theorem IsPiece.of_prefix (ht : IsPiece t) (hu : u <+: t) (hne : u ≠ [])
    (hlast : ∀ c, u.getLast? = some c → isBlank c = false) : IsPiece u where
  ne_nil := hne
  trim_eq := by
    apply Text.trim_eq_self _ hlast
    intro c hc
    obtain ⟨r, rfl⟩ := hu
    obtain ⟨s, rfl⟩ := List.head?_eq_some_iff.1 hc
    exact Text.isBlank_of_head?_trim (by rw [ht.trim_eq]; rfl)
  comma_notMem hc := ht.comma_notMem (hu.subset hc)

theorem isPiece_bareName {word : Text} (hne : bareName word ≠ [])
    (h : ∀ c ∈ word, isBlank c = false ∧ c ≠ ',') : IsPiece (bareName word) := by
  apply IsPiece.of_word hne
  intro c hc
  exact h c ((List.dropWhile_suffix _).subset ((List.takeWhile_prefix _).subset hc))

theorem isPiece_of_typed? (hu : IsPiece untyped) (ht : IsPiece t)
    (h : typed? untyped t = some p) : IsPiece p.name ∧ IsPiece p.type := by
  have hword : ∀ c ∈ t.endWhile fun c => !isBlank c, isBlank c = false ∧ c ≠ ',' := by
    intro c hc
    refine ⟨by simpa using Text.mem_endWhile_imp hc, ?_⟩
    rintro rfl
    exact ht.comma_notMem ((Text.endWhile_suffix _ t).subset hc)
  simp only [typed?] at h
  split at h
  · cases h
  · rename_i hname
    obtain rfl := Option.some.inj h
    refine ⟨isPiece_bareName (by simpa using hname) hword, ?_⟩
    dsimp only
    split
    · exact hu
    · rename_i htype
      apply ht.of_prefix
      · exact (Text.dropEndWhile_prefix _ _).trans (Text.dropEndWhile_prefix _ _)
      · simpa using htype
      · exact fun c => Text.getLast?_dropEndWhile

theorem isPiece_join {words : List Text} (hne : words ≠ [])
    (h : ∀ word ∈ words, word ≠ [] ∧ ∀ c ∈ word, isBlank c = false ∧ c ≠ ',') :
    IsPiece (Text.join [' '] words) := by
  obtain ⟨first, rest, rfl⟩ := List.exists_cons_of_ne_nil hne
  obtain ⟨hfirst, hrest⟩ := List.forall_mem_cons.1 h
  let d : Named :=
    ⟨first, [' '], rest, hfirst.1, hfirst.2, by simp, rfl, fun w hw => (hrest w hw).1,
      fun w hw => (hrest w hw).2⟩
  have hd : d.text = Text.join [' '] (first :: rest) := by
    cases rest with
    | nil => rfl
    | cons second rest => exact if_neg (List.cons_ne_nil second rest)
  exact hd ▸ d.isPiece_text

theorem isPiece_of_named? (ht : IsPiece t) (h : named? t = some p) :
    IsPiece p.name ∧ IsPiece p.type := by
  have hwords : ∀ word ∈ t.words, word ≠ [] ∧ ∀ c ∈ word, isBlank c = false ∧ c ≠ ',' := by
    intro word hw
    refine ⟨Text.ne_nil_of_mem_words hw, fun c hc => ?_⟩
    obtain ⟨hblank, hmem⟩ := Text.of_mem_words hw hc
    refine ⟨hblank, ?_⟩
    rintro rfl
    exact ht.comma_notMem hmem
  rw [named?] at h
  split at h
  · cases h
  · rename_i name hname
    obtain rfl := Option.some.inj h
    rw [hname, List.forall_mem_singleton] at hwords
    have hempty : IsPiece "interface\x7b\x7d".toList := ⟨by decide, by decide, by decide⟩
    exact ⟨.of_word hwords.1 hwords.2, hempty⟩
  · rename_i name type hne hname
    obtain rfl := Option.some.inj h
    rw [hname, List.forall_mem_cons] at hwords
    exact ⟨.of_word hwords.1.1 hwords.1.2, isPiece_join (by simpa using hne) hwords.2⟩

theorem isPiece_anyType : IsPiece anyType := ⟨by decide, by decide, by decide⟩

theorem isPiece_of_bound?_declared (he : '=' ∉ t) (hcomma : ',' ∉ t) (h : bound? t = some p) :
    IsPiece p.name ∧ IsPiece p.type := by
  have hname {u : Text} (hu : ',' ∉ u) (hne : ((u.trim.dropEndWhile (· = '?')).trim) ≠ []) :
      IsPiece ((u.trim.dropEndWhile (· = '?')).trim) :=
    .of_trim hne fun hc => hu (Text.mem_of_mem_trim ((Text.dropEndWhile_prefix _ _).subset hc))
  simp only [bound?, Text.cut?_of_not_mem he] at h
  cases hcut : Text.cut? ':' t with
  | none =>
      simp only [hcut] at h
      split at h
      · cases h
      · rename_i hne
        obtain rfl := Option.some.inj h
        exact ⟨hname hcomma (by simpa using hne), isPiece_anyType⟩
  | some parts =>
      obtain ⟨name, type⟩ := parts
      obtain ⟨rfl, -⟩ := Text.cut?_eq_some hcut
      obtain ⟨hn, -, ht⟩ : ',' ∉ name ∧ ',' ≠ ':' ∧ ',' ∉ type := by simpa using hcomma
      simp only [hcut] at h
      split at h
      · cases h
      · rename_i hne
        obtain rfl := Option.some.inj h
        refine ⟨hname hn (by simpa using hne), ?_⟩
        dsimp only
        split
        · exact isPiece_anyType
        · rename_i htype
          exact .of_trim (by simpa using htype) ht

theorem isPiece_of_bound? (ht : IsPiece t) (h : bound? t = some p) :
    IsPiece p.name ∧ IsPiece p.type := by
  cases hcut : Text.cut? '=' t with
  | none =>
      exact isPiece_of_bound?_declared (Text.not_mem_of_cut?_eq_none hcut) ht.comma_notMem h
  | some parts =>
      obtain ⟨front, value⟩ := parts
      obtain ⟨rfl, hf⟩ := Text.cut?_eq_some hcut
      rw [Bound.bound?_append_cons hf] at h
      obtain ⟨q, hq, rfl⟩ := Option.map_eq_some_iff.1 h
      have hcomma : ',' ∉ front := fun hc => ht.comma_notMem (List.mem_append_left _ hc)
      exact isPiece_of_bound?_declared (p := q) (fun he => hf (Text.mem_of_mem_trim he))
        (fun hc => hcomma (Text.mem_of_mem_trim hc)) hq

/-- What may stand behind the name of an annotated declaration, with the type that is read. -/
inductive Annotation : (behind type : Text) → Prop
  | bare {gap : Text} (blank : gap.allBlank = true) : Annotation gap anyType
  | valued {gap : Text} (blank : gap.allBlank = true) (value : Text) :
      Annotation (gap ++ '=' :: value) anyType
  | typed {gap written : Text} (blank : gap.allBlank = true) (plain : '=' ∉ written)
      (ne_nil : written.trim ≠ []) : Annotation (gap ++ ':' :: written) written.trim
  | full {gap written : Text} (blank : gap.allBlank = true) (plain : '=' ∉ written)
      (ne_nil : written ≠ []) (value : Text) :
      Annotation (gap ++ ':' :: (written ++ '=' :: value)) written.trim

theorem annotated?_eq_some (h : annotated? t = some p) :
    ∃ behind, t = p.name ++ behind ∧ p.name ≠ [] ∧ (∀ c ∈ p.name, isWord c = true) ∧
      Annotation behind p.type := by
  rw [annotated?] at h
  obtain ⟨⟨name, behind⟩, hword, hread⟩ := Option.bind_eq_some_iff.1 h
  obtain ⟨hne, hall, rfl⟩ := Text.word?_eq_some hword
  have hblank : Text.allBlank (behind.takeWhile isBlank) = true :=
    List.all_eq_true.2 fun _ => List.mem_takeWhile_imp
  have hcut : behind = behind.takeWhile isBlank ++ Text.skipBlanks behind :=
    List.takeWhile_append_dropWhile.symm
  clear h hword
  generalize behind.takeWhile isBlank = gap at hblank hcut
  dsimp only at hread
  split at hread
  · rename_i hskip
    obtain rfl := Option.some.inj hread
    rw [hskip, List.append_nil] at hcut
    exact ⟨behind, rfl, hne, hall, hcut ▸ .bare hblank⟩
  · rename_i value hskip
    obtain ⟨default, -, hread⟩ := Option.bind_eq_some_iff.1 hread
    obtain rfl := Option.some.inj hread
    rw [hskip] at hcut
    exact ⟨behind, rfl, hne, hall, hcut ▸ .valued hblank value⟩
  · rename_i rest hskip
    rw [hskip] at hcut
    split at hread
    · rename_i hequals
      obtain ⟨_, htype, hread⟩ := Option.bind_eq_some_iff.1 hread
      obtain rfl := Option.some.inj hread
      have hwritten : Text.trim rest ≠ [] := by simpa using htype
      have hplain := Text.not_mem_of_cut?_eq_none hequals
      exact ⟨behind, rfl, hne, hall, hcut ▸ .typed hblank hplain hwritten⟩
    · rename_i type value hequals
      obtain ⟨_, htype, hread⟩ := Option.bind_eq_some_iff.1 hread
      obtain ⟨default, -, hread⟩ := Option.bind_eq_some_iff.1 hread
      obtain rfl := Option.some.inj hread
      obtain ⟨rfl, hplain⟩ := Text.cut?_eq_some hequals
      exact ⟨behind, rfl, hne, hall, hcut ▸ .full hblank hplain (by simpa using htype) value⟩
  · cases hread

/-- Between a colon and an equals sign behind the name stand blanks alone. -/
def LeavesTypeBlank (t name : Text) : Prop :=
  ∃ gap blanks value : Text, t = name ++ (gap ++ ':' :: (blanks ++ '=' :: value)) ∧
    gap.allBlank = true ∧ blanks.allBlank = true

namespace Annotation

variable {behind type : Text}

theorem trim_type (h : Annotation behind type) : type.trim = type := by
  cases h with
  | bare | valued => exact isPiece_anyType.trim_eq
  | typed | full => exact Text.trim_trim _

theorem comma_notMem_type (h : Annotation behind type) (hb : ',' ∉ behind) : ',' ∉ type := by
  cases h with
  | bare | valued => exact isPiece_anyType.comma_notMem
  | typed | full =>
      intro hc
      exact hb (by simp [Text.mem_of_mem_trim hc])

theorem type_eq_nil_iff (h : Annotation behind type) (name : Text) :
    type = [] ↔ LeavesTypeBlank (name ++ behind) name := by
  constructor
  · intro hnil
    cases h with
    | bare | valued => cases hnil
    | typed _ _ hne => exact absurd hnil hne
    | @full gap written blank _ _ value =>
        exact ⟨gap, written, value, rfl, blank, Text.trim_eq_nil_iff.1 hnil⟩
  · rintro ⟨gap', blanks, value', heq, hgap', hblanks⟩
    replace heq := congrArg Text.skipBlanks (List.append_cancel_left heq)
    rw [Text.skipBlanks_append_left hgap', Text.skipBlanks_cons_of_not_blank (by decide)] at heq
    cases h with
    | bare blank =>
        rw [← List.append_nil behind, Text.skipBlanks_append_left blank] at heq
        cases heq
    | valued blank value =>
        rw [Text.skipBlanks_append_left blank, Text.skipBlanks_cons_of_not_blank (by decide)] at heq
        cases heq
    | typed blank plain ne_nil =>
        rw [Text.skipBlanks_append_left blank, Text.skipBlanks_cons_of_not_blank (by decide)] at heq
        exact absurd (by simp [List.tail_eq_of_cons_eq heq]) plain
    | full blank plain ne_nil value =>
        rw [Text.skipBlanks_append_left blank, Text.skipBlanks_cons_of_not_blank (by decide)] at heq
        have hcut := congrArg (Text.cut? '=') (List.tail_eq_of_cons_eq heq)
        rw [Text.cut?_append_cons plain,
          Text.cut?_append_cons (Text.not_mem_of_allBlank hblanks (by decide))] at hcut
        obtain ⟨rfl, -⟩ := Prod.mk.inj (Option.some.inj hcut)
        exact Text.trim_eq_nil_iff.2 hblanks

end Annotation

theorem isPiece_of_read? (hl : dropsSelf language = false) (ht : IsPiece t)
    (h : read? language t = some p) : IsPiece p.name ∧ IsPiece p.type := by
  cases language with
  | java =>
      have hobject : IsPiece "Object".toList := ⟨by decide, by decide, by decide⟩
      exact isPiece_of_typed? hobject ht h
  | c | cpp =>
      have hint : IsPiece "int".toList := ⟨by decide, by decide, by decide⟩
      exact isPiece_of_typed? hint ht h
  | go => exact isPiece_of_named? ht h
  | javascript | typescript => exact isPiece_of_bound? ht h
  | python | unknown => cases hl

theorem read?_eq_annotated? (hl : dropsSelf language = true) : read? language = annotated? := by
  cases language with
  | python | unknown => rfl
  | java | c | cpp | go | javascript | typescript => cases hl

theorem of_annotated? (ht : IsPiece t) (h : annotated? t = some p) :
    IsPiece p.name ∧ p.type.trim = p.type ∧ ',' ∉ p.type ∧
      (p.type = [] ↔ LeavesTypeBlank t p.name) := by
  obtain ⟨behind, rfl, hne, hword, hbehind⟩ := annotated?_eq_some h
  have hcomma := ht.comma_notMem
  rw [List.mem_append, not_or] at hcomma
  refine ⟨?_, hbehind.trim_type, hbehind.comma_notMem_type hcomma.2,
    hbehind.type_eq_nil_iff p.name⟩
  apply IsPiece.of_word hne
  intro c hc
  refine ⟨Text.isBlank_of_isWord (hword c hc), ?_⟩
  rintro rfl
  exact hcomma.1 hc

/-- The name of a parameter is a word or more, without blanks at its ends and without commas. So is
its type, but that nothing is left of it where an annotated declaration has blanks in its place. -/
theorem isPiece_of_mem_tokenize (h : p ∈ tokenize language raw) :
    ∃ t ∈ declarations raw, read? language t = some p ∧ IsPiece p.name ∧ p.type.trim = p.type ∧
      ',' ∉ p.type ∧
      (p.type = [] ↔
        (language = .python ∨ language = .unknown) ∧ LeavesTypeBlank t p.name) := by
  rw [tokenize_eq] at h
  obtain ⟨t, hmem, hread⟩ := List.mem_filterMap.1 h
  have ht : t ∈ declarations raw := by
    split at hmem
    · exact mem_declarations_of_mem_dropSelf hmem
    · exact hmem
  have hpiece := isPiece_of_mem_declarations ht
  refine ⟨t, ht, hread, ?_⟩
  rw [← dropsSelf_iff]
  cases hl : dropsSelf language with
  | false =>
      obtain ⟨hname, htype⟩ := isPiece_of_read? hl hpiece hread
      exact ⟨hname, htype.trim_eq, htype.comma_notMem, by simp [htype.ne_nil]⟩
  | true =>
      rw [read?_eq_annotated? hl] at hread
      simpa using of_annotated? hpiece hread

def plainAndBlank : Text := " x: int | None, y: = 3 ".toList

def plainParameter : Parameter := ⟨"x".toList, "int | None".toList, none⟩

theorem isPiece_of_mem_tokenize_plain :
    plainParameter ∈ tokenize .python plainAndBlank ∧
      ∃ t ∈ declarations plainAndBlank, read? .python t = some plainParameter ∧
        IsPiece plainParameter.name ∧ plainParameter.type.trim = plainParameter.type ∧
        ',' ∉ plainParameter.type ∧
        (plainParameter.type = [] ↔
          (Language.python = .python ∨ Language.python = .unknown) ∧
            LeavesTypeBlank t plainParameter.name) := by
  have hmem : plainParameter ∈ tokenize .python plainAndBlank := by decide
  exact ⟨hmem, isPiece_of_mem_tokenize hmem⟩

theorem tokenize_emptyType :
    tokenize .python plainAndBlank = [plainParameter, ⟨"y".toList, [], some "3".toList⟩] ∧
      ¬ ∀ p ∈ tokenize .python plainAndBlank, IsPiece p.name ∧ IsPiece p.type := by
  have hread : tokenize .python plainAndBlank =
      [plainParameter, ⟨"y".toList, [], some "3".toList⟩] := by
    rfl
  refine ⟨hread, fun h => ?_⟩
  rw [hread] at h
  exact (h ⟨"y".toList, [], some "3".toList⟩ (by simp)).2.ne_nil rfl

end SoloCall.Parameter
