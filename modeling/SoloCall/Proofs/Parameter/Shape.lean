import Mathlib.Control.Basic
import Mathlib.Data.Option.Basic
import SoloCall.Parameter
import SoloCall.Proofs.Text.Trim

namespace SoloCall.Parameter

/-- A text that a list of declarations gives back as it stands. -/
structure IsPiece (t : Text) : Prop where
  ne_nil : t ≠ []
  trim_eq : t.trim = t
  comma_notMem : ',' ∉ t

namespace IsPiece

variable {t front gap back : Text}

theorem of_word (hne : t ≠ []) (h : ∀ c ∈ t, isBlank c = false ∧ c ≠ ',') : IsPiece t where
  ne_nil := hne
  trim_eq := Text.trim_of_not_blank fun c hc => (h c hc).1
  comma_notMem hc := (h _ hc).2 rfl

theorem append (h : IsPiece front) (hlast : ∀ c, back.getLast? = some c → isBlank c = false)
    (hcomma : ',' ∉ back) : IsPiece (front ++ back) where
  ne_nil := by simp [h.ne_nil]
  trim_eq := Text.trim_append_eq_self h.ne_nil h.trim_eq hlast
  comma_notMem := by simp [h.comma_notMem, hcomma]

theorem append_gap (h : IsPiece front) (hgap : gap.allBlank = true) (hne : back ≠ [])
    (hlast : ∀ c, back.getLast? = some c → isBlank c = false) (hcomma : ',' ∉ back) :
    IsPiece (front ++ gap ++ back) := by
  rw [List.append_assoc]
  apply h.append
  · rwa [Text.getLast?_append_left hne]
  · simp [hcomma, Text.not_mem_of_allBlank hgap (c := ',') (by decide)]

end IsPiece

/-- What a declaration says behind a mark, with the blanks around the mark. -/
structure Clause (mark : Char) where
  before : Text
  after : Text
  text : Text
  before_blank : before.allBlank = true
  after_blank : after.allBlank = true
  text_trim : text.trim = text
  comma_notMem : ',' ∉ text
  after_eq_nil : text = [] → after = []

namespace Clause

variable {mark c : Char} {front : Text}

def value (k : Clause mark) : Text := k.after ++ k.text

def written (k : Clause mark) : Text := k.before ++ mark :: k.value

def optional (k? : Option (Clause mark)) : Text := k?.elim [] written

theorem trim_value (k : Clause mark) : k.value.trim = k.text := by
  rw [value, Text.trim_append_left k.after_blank, k.text_trim]

theorem skipBlanks_value (k : Clause mark) : k.value.skipBlanks = k.text := by
  rw [value, Text.skipBlanks_append_left k.after_blank,
    Text.skipBlanks_of_trim_eq_self k.text_trim]

theorem not_mem_value (hc : isBlank c = false) {k : Clause mark} (ht : c ∉ k.text) :
    c ∉ k.value := by
  simp [value, ht, Text.not_mem_of_allBlank k.after_blank hc]

theorem skipBlanks_written (hm : isBlank mark = false) (k : Clause mark) (r : Text) :
    Text.skipBlanks (k.written ++ r) = mark :: (k.value ++ r) := by
  rw [written, List.append_assoc, Text.skipBlanks_append_left k.before_blank, List.cons_append,
    Text.skipBlanks_cons_of_not_blank hm]

theorem cut?_written (hm : isBlank mark = false) (hf : mark ∉ front) (k : Clause mark) :
    Text.cut? mark (front ++ k.written) = some (front ++ k.before, k.value) := by
  have hbefore : mark ∉ front ++ k.before := by
    simp [hf, Text.not_mem_of_allBlank k.before_blank hm]
  rw [written, ← List.append_assoc, Text.cut?_append_cons hbefore]

theorem not_mem_written (hc : isBlank c = false) (hm : c ≠ mark) {k : Clause mark}
    (ht : c ∉ k.text) : c ∉ k.written := by
  simp [written, hm, not_mem_value hc ht, Text.not_mem_of_allBlank k.before_blank hc]

theorem not_mem_optional (hc : isBlank c = false) (hm : c ≠ mark) {k? : Option (Clause mark)}
    (ht : ∀ k ∈ k?, c ∉ k.text) : c ∉ optional k? := by
  cases k? with
  | none => exact List.not_mem_nil
  | some k => exact not_mem_written hc hm (ht k rfl)

theorem isBlank_of_getLast?_written (hm : isBlank mark = false) (k : Clause mark)
    (h : k.written.getLast? = some c) : isBlank c = false := by
  rw [written, Text.getLast?_append_left (List.cons_ne_nil _ _)] at h
  by_cases ht : k.text = []
  · rw [value, ht, k.after_eq_nil ht] at h
    obtain rfl := Option.some.inj h
    exact hm
  · rw [value, ← List.cons_append, Text.getLast?_append_left ht, ← k.text_trim] at h
    exact Text.isBlank_of_getLast?_trim h

theorem isWord_of_head?_written (hm : isWord mark = false) (k : Clause mark) {r : Text}
    (h : (k.written ++ r).head? = some c) : isWord c = false := by
  cases hb : k.before with
  | nil =>
      rw [written, hb] at h
      obtain rfl := Option.some.inj h
      exact hm
  | cons d before =>
      rw [written, hb] at h
      obtain rfl := Option.some.inj h
      have hblank := k.before_blank
      rw [hb] at hblank
      exact Text.isWord_of_isBlank (List.all_eq_true.1 hblank d List.mem_cons_self)

theorem isWord_of_head?_optional (hm : isWord mark = false) {r : Text}
    (hr : ∀ c, r.head? = some c → isWord c = false) (k? : Option (Clause mark)) :
    ∀ c, (optional k? ++ r).head? = some c → isWord c = false := by
  intro c hc
  cases k? with
  | none => exact hr c hc
  | some k => exact k.isWord_of_head?_written hm hc

end Clause

theorem IsPiece.append_optional {front : Text} {mark : Char} (h : IsPiece front)
    (hm : isBlank mark = false) (hc : ',' ≠ mark) (k? : Option (Clause mark)) :
    IsPiece (front ++ Clause.optional k?) := by
  apply h.append
  · intro c hl
    cases k? with
    | none => cases hl
    | some k => exact Clause.isBlank_of_getLast?_written hm k hl
  · exact Clause.not_mem_optional (by decide) hc fun k _ => k.comma_notMem

/-- `name`, `name: type`, `name = default` or both. -/
structure Annotated where
  name : Text
  type? : Option (Clause ':')
  default? : Option (Clause '=')
  name_ne_nil : name ≠ []
  name_word : ∀ c ∈ name, isWord c = true
  type_ok : ∀ k ∈ type?, k.text ≠ [] ∧ '=' ∉ k.text
  default_ok : ∀ k ∈ default?, k.text ≠ [] ∧ '\n' ∉ k.text

namespace Annotated

def text (d : Annotated) : Text := d.name ++ Clause.optional d.type? ++ Clause.optional d.default?

def parameter (d : Annotated) : Parameter :=
  ⟨d.name, (d.type?.map Clause.text).getD anyType, d.default?.map Clause.text⟩

theorem defaultValue?_value (k : Clause '=') (hne : k.text ≠ []) (hn : '\n' ∉ k.text) :
    defaultValue? k.value = some k.text := by
  rw [defaultValue?, k.skipBlanks_value]
  simp [hne, hn]

theorem annotated?_text (d : Annotated) : annotated? d.text = some d.parameter := by
  obtain ⟨name, type?, default?, hne, hword, htype, hdefault⟩ := d
  have hend : ∀ c, (Clause.optional default?).head? = some c → isWord c = false := by
    have h := Clause.isWord_of_head?_optional (r := []) (by rfl) (by simp) default?
    rwa [List.append_nil] at h
  have hrest := Clause.isWord_of_head?_optional (by rfl) hend type?
  rw [text, List.append_assoc, annotated?, Text.word?_append_of_head? hne hword hrest]
  cases type? with
  | none =>
      cases default? with
      | none => rfl
      | some v =>
          obtain ⟨hv, hn⟩ := hdefault v rfl
          have hskip : v.written.skipBlanks = '=' :: v.value := by
            simpa using v.skipBlanks_written (by decide) []
          simp [Clause.optional, hskip, defaultValue?_value v hv hn, parameter]
  | some k =>
      obtain ⟨hk, he⟩ := htype k rfl
      have hvalue : '=' ∉ k.value := Clause.not_mem_value (by decide) he
      cases default? with
      | none =>
          have hskip : k.written.skipBlanks = ':' :: k.value := by
            simpa using k.skipBlanks_written (by decide) []
          simp [Clause.optional, hskip, Text.cut?_of_not_mem hvalue, k.trim_value, hk, parameter]
      | some v =>
          obtain ⟨hv, hn⟩ := hdefault v rfl
          have hskip := k.skipBlanks_written (by decide) v.written
          have hcut := v.cut?_written (by decide) hvalue
          have htrim := Text.trim_append_right v.before_blank k.value
          have hne : k.value ≠ [] := by simp [Clause.value, hk]
          simp [Clause.optional, hskip, hcut, htrim, k.trim_value, hne,
            defaultValue?_value v hv hn, parameter]

theorem isPiece_text (d : Annotated) : IsPiece d.text := by
  have hcomma : isWord ',' = false := by rfl
  have hname : IsPiece d.name := by
    refine IsPiece.of_word d.name_ne_nil fun c hc => ?_
    have hword := d.name_word c hc
    refine ⟨Text.isBlank_of_isWord hword, ?_⟩
    rintro rfl
    rw [hcomma] at hword
    cases hword
  exact (hname.append_optional (by decide) (by decide) d.type?).append_optional (by decide)
    (by decide) d.default?

end Annotated

/-- `type name`, with marks before the name and a suffix in brackets after it. -/
structure Typed where
  type : Text
  gap : Text
  marks : Text
  name : Text
  suffix : Text
  type_ne_nil : type ≠ []
  type_trim : type.trim = type
  type_comma : ',' ∉ type
  gap_ne_nil : gap ≠ []
  gap_blank : gap.allBlank = true
  marks_ok : ∀ c ∈ marks, c = '*' ∨ c = '&'
  name_ne_nil : name ≠ []
  name_head : ∀ c ∈ name.head?, c ≠ '*' ∧ c ≠ '&'
  name_ok : ∀ c ∈ name, isBlank c = false ∧ c ≠ ',' ∧ c ≠ '['
  suffix_head : ∀ c ∈ suffix.head?, c = '['
  suffix_ok : ∀ c ∈ suffix, isBlank c = false ∧ c ≠ ','

namespace Typed

def word (d : Typed) : Text := d.marks ++ (d.name ++ d.suffix)

def text (d : Typed) : Text := d.type ++ d.gap ++ d.word

def parameter (d : Typed) : Parameter := ⟨d.name, d.type, none⟩

theorem word_ne_nil (d : Typed) : d.word ≠ [] := by simp [word, d.name_ne_nil]

theorem isBlank_of_mem_word (d : Typed) : ∀ c ∈ d.word, isBlank c = false := by
  intro c hc
  rw [word, List.mem_append, List.mem_append] at hc
  rcases hc with hm | hn | hs
  · rcases d.marks_ok c hm with rfl | rfl <;> decide
  · exact (d.name_ok c hn).1
  · exact (d.suffix_ok c hs).1

theorem comma_notMem_word (d : Typed) : ',' ∉ d.word := by
  rw [word, List.mem_append, List.mem_append]
  rintro (hm | hn | hs)
  · simpa using d.marks_ok _ hm
  · exact (d.name_ok _ hn).2.1 rfl
  · exact (d.suffix_ok _ hs).2 rfl

theorem bareName_word (d : Typed) : bareName d.word = d.name := by
  have hmarks : ∀ c ∈ d.marks, (decide (c = '*') || decide (c = '&')) = true := by
    simpa using d.marks_ok
  have hname : ∀ c ∈ d.name, decide (c ≠ '[') = true := by
    intro c hc
    simpa using (d.name_ok c hc).2.2
  have hsuffix : d.suffix.takeWhile (fun c => decide (c ≠ '[')) = [] := by
    have hhead := d.suffix_head
    cases hs : d.suffix with
    | nil => rfl
    | cons c r =>
        rw [hs] at hhead
        simp [hhead c rfl]
  have hstop : (d.name ++ d.suffix).dropWhile (fun c => decide (c = '*') || decide (c = '&')) =
      d.name ++ d.suffix := by
    obtain ⟨c, r, hn⟩ := List.exists_cons_of_ne_nil d.name_ne_nil
    have hc := d.name_head c (by rw [hn]; rfl)
    rw [hn, List.cons_append, List.dropWhile_cons_of_neg (by simp [hc])]
  rw [bareName, word, List.dropWhile_append_of_pos hmarks, hstop,
    List.takeWhile_append_of_pos hname, hsuffix, List.append_nil]

theorem typed?_text (d : Typed) (untyped : Text) : typed? untyped d.text = some d.parameter := by
  have hgap : ∀ c, (d.type ++ d.gap).getLast? = some c → (!isBlank c) = false := by
    intro c hc
    rw [Text.getLast?_append_left d.gap_ne_nil] at hc
    simp [List.all_eq_true.1 d.gap_blank c (List.mem_of_getLast? hc)]
  have hword : d.text.endWhile (fun c => !isBlank c) = d.word :=
    Text.endWhile_append_of_getLast? hgap fun c hc => by simp [d.isBlank_of_mem_word c hc]
  have hfront : d.text.dropEndWhile (fun c => !isBlank c) = d.type ++ d.gap := by
    have hcut := Text.dropEndWhile_append_endWhile (fun c => !isBlank c) d.text
    rw [hword] at hcut
    exact List.append_cancel_right hcut
  have htype : Text.trimEnd (d.type ++ d.gap) = d.type := by
    rw [Text.trimEnd_append_right d.gap_blank, Text.trimEnd_of_trim_eq_self d.type_trim]
  simp only [typed?, hword, hfront, htype, d.bareName_word]
  simp [d.name_ne_nil, d.type_ne_nil, parameter]

theorem isPiece_text (d : Typed) : IsPiece d.text := by
  have htype : IsPiece d.type := ⟨d.type_ne_nil, d.type_trim, d.type_comma⟩
  exact htype.append_gap d.gap_blank d.word_ne_nil
    (fun c hc => d.isBlank_of_mem_word c (List.mem_of_getLast? hc)) d.comma_notMem_word

end Typed

/-- `name type`, where the type is words with one space between them. -/
structure Named where
  name : Text
  gap : Text
  type : List Text
  name_ne_nil : name ≠ []
  name_ok : ∀ c ∈ name, isBlank c = false ∧ c ≠ ','
  gap_ne_nil : gap ≠ []
  gap_blank : gap.allBlank = true
  word_ne_nil : ∀ word ∈ type, word ≠ []
  word_ok : ∀ word ∈ type, ∀ c ∈ word, isBlank c = false ∧ c ≠ ','

namespace Named

def typeText (d : Named) : Text := Text.join [' '] d.type

def text (d : Named) : Text :=
  if d.type = [] then d.name else d.name ++ d.gap ++ d.typeText

def parameter (d : Named) : Parameter :=
  ⟨d.name, if d.type = [] then "interface\x7b\x7d".toList else d.typeText, none⟩

theorem words_text (d : Named) : d.text.words = d.name :: d.type := by
  have hname : d.name.words = [d.name] :=
    Text.words_of_not_blank d.name_ne_nil fun c hc => (d.name_ok c hc).1
  by_cases ht : d.type = []
  · rw [text, if_pos ht, hname, ht]
  · have hwords : d.typeText.words = d.type :=
      Text.words_join d.word_ne_nil fun w hw c hc => (d.word_ok w hw c hc).1
    obtain ⟨c, gap, hg⟩ := List.exists_cons_of_ne_nil d.gap_ne_nil
    have hblank := d.gap_blank
    rw [hg] at hblank
    obtain ⟨hc, hgap⟩ : isBlank c = true ∧ Text.allBlank gap = true := by
      simpa [Text.allBlank] using hblank
    rw [text, if_neg ht, hg, List.append_assoc, List.cons_append, Text.words_append_cons hc, hname,
      Text.words_append_left hgap, hwords, List.singleton_append]

theorem named?_text (d : Named) : named? d.text = some d.parameter := by
  rw [named?, words_text]
  cases ht : d.type with
  | nil => simp [parameter, ht]
  | cons word rest => simp [parameter, typeText, ht]

theorem typeText_ne_nil {d : Named} (ht : d.type ≠ []) : d.typeText ≠ [] := by
  obtain ⟨word, rest, hw⟩ := List.exists_cons_of_ne_nil ht
  rw [typeText, hw]
  exact Text.join_ne_nil (d.word_ne_nil word (by simp [hw])) rest

theorem comma_notMem_typeText (d : Named) : ',' ∉ d.typeText := by
  intro hc
  rcases Text.mem_of_mem_join hc with hs | ⟨w, hw, hc⟩
  · simp at hs
  · exact (d.word_ok w hw _ hc).2 rfl

theorem isPiece_text (d : Named) : IsPiece d.text := by
  have hname : IsPiece d.name := .of_word d.name_ne_nil d.name_ok
  by_cases ht : d.type = []
  · rwa [text, if_pos ht]
  · rw [text, if_neg ht]
    apply hname.append_gap d.gap_blank (typeText_ne_nil ht)
    · intro c hc
      obtain ⟨w, hw, hc⟩ := Text.exists_mem_of_getLast?_join d.word_ne_nil hc
      exact (d.word_ok w hw c hc).1
    · exact d.comma_notMem_typeText

end Named

/-- `name: type = default`, where the name may be marked as optional. -/
structure Bound where
  name : Text
  isOptional : Bool
  type? : Option (Clause ':')
  default? : Option (Clause '=')
  name_ne_nil : name ≠ []
  name_trim : name.trim = name
  name_ok : ∀ c ∈ name, c ≠ ',' ∧ c ≠ ':' ∧ c ≠ '='
  name_last : ∀ c ∈ name.getLast?, c ≠ '?'
  type_ok : ∀ k ∈ type?, k.text ≠ [] ∧ '=' ∉ k.text

namespace Bound

def marked (d : Bound) : Text := d.name ++ if d.isOptional then ['?'] else []

def declared (d : Bound) : Text := d.marked ++ Clause.optional d.type?

def text (d : Bound) : Text := d.declared ++ Clause.optional d.default?

def parameter (d : Bound) : Parameter :=
  ⟨d.name, (d.type?.map Clause.text).getD anyType, d.default?.map Clause.text⟩

theorem not_mem_marked {c : Char} (d : Bound) (hn : c ∉ d.name) (hc : c ≠ '?') :
    c ∉ d.marked := by
  cases h : d.isOptional <;> simp [marked, h, hn, hc]

theorem isPiece_marked (d : Bound) : IsPiece d.marked := by
  have hname : IsPiece d.name := ⟨d.name_ne_nil, d.name_trim, fun h => (d.name_ok _ h).1 rfl⟩
  apply hname.append
  · intro c hc
    split at hc
    · obtain rfl : '?' = c := by simpa using hc
      decide
    · cases hc
  · split <;> simp

theorem isPiece_declared (d : Bound) : IsPiece d.declared :=
  d.isPiece_marked.append_optional (by decide) (by decide) d.type?

theorem isPiece_text (d : Bound) : IsPiece d.text :=
  d.isPiece_declared.append_optional (by decide) (by decide) d.default?

theorem name_of_marked (d : Bound) {w : Text} (hw : w.allBlank = true) :
    (Text.dropEndWhile (· = '?') (Text.trim (d.marked ++ w))).trim = d.name := by
  have hname : Text.dropEndWhile (· = '?') d.name = d.name :=
    Text.dropEndWhile_eq_self fun c hc => by simpa using d.name_last c hc
  have hmark : Text.dropEndWhile (· = '?') (if d.isOptional then ['?'] else []) = [] :=
    Text.dropEndWhile_eq_nil (by split <;> simp)
  rw [Text.trim_append_right hw, d.isPiece_marked.trim_eq, marked, Text.dropEndWhile_append,
    if_pos hmark, hname, d.name_trim]

theorem equals_notMem_declared (d : Bound) : '=' ∉ d.declared := by
  rw [declared, List.mem_append, not_or]
  exact ⟨d.not_mem_marked (fun h => (d.name_ok _ h).2.2 rfl) (by decide),
    Clause.not_mem_optional (by decide) (by decide) fun k hk => (d.type_ok k hk).2⟩

theorem cut?_declared (d : Bound) :
    Text.cut? ':' d.declared = d.type?.map fun k => (d.marked ++ k.before, k.value) := by
  have hmarked : ':' ∉ d.marked :=
    d.not_mem_marked (fun h => (d.name_ok _ h).2.1 rfl) (by decide)
  rw [declared]
  cases d.type? with
  | none => exact Text.cut?_of_not_mem (by simpa [Clause.optional] using hmarked)
  | some k => exact k.cut?_written (by decide) hmarked

theorem bound?_declared (d : Bound) :
    bound? d.declared = some ⟨d.name, (d.type?.map Clause.text).getD anyType, none⟩ := by
  have hequals := Text.cut?_of_not_mem d.equals_notMem_declared
  have hcut := d.cut?_declared
  cases ht : d.type? with
  | none =>
      have hdeclared : d.declared = d.marked := by simp [declared, ht, Clause.optional]
      have hname := d.name_of_marked (w := []) rfl
      rw [List.append_nil] at hname
      rw [ht, hdeclared] at hcut
      rw [hdeclared] at hequals ⊢
      simp [bound?, hequals, hcut, hname, d.name_ne_nil]
  | some k =>
      have hname := d.name_of_marked k.before_blank
      have hk := (d.type_ok k ht).1
      rw [ht] at hcut
      simp [bound?, hequals, hcut, hname, d.name_ne_nil, k.trim_value, hk]

/-- The first equals sign ends what is declared; behind it stands the default. -/
theorem bound?_append_cons {front : Text} (hf : '=' ∉ front) (value : Text) :
    bound? (front ++ '=' :: value) =
      (bound? front.trim).map fun p => { p with default? := some value.trim } := by
  have htrim : Text.cut? '=' front.trim = none :=
    Text.cut?_of_not_mem fun h => hf (Text.mem_of_mem_trim h)
  simp only [bound?, Text.cut?_append_cons hf, htrim]
  split <;> simp [apply_ite]

theorem bound?_text (d : Bound) : bound? d.text = some d.parameter := by
  rw [text, parameter]
  cases d.default? with
  | none => simpa [Clause.optional] using d.bound?_declared
  | some v =>
      have hfront : '=' ∉ d.declared ++ v.before := by
        rw [List.mem_append, not_or]
        exact ⟨d.equals_notMem_declared, Text.not_mem_of_allBlank v.before_blank (by decide)⟩
      have hvalue := bound?_append_cons hfront v.value
      rw [Text.trim_append_right v.before_blank, d.isPiece_declared.trim_eq, bound?_declared,
        v.trim_value] at hvalue
      simpa [Clause.optional, Clause.written] using hvalue

end Bound

end SoloCall.Parameter
