import Mathlib.Data.Option.Basic
import SoloCall.Header.Recognise
import SoloCall.Proofs.Text.Words

namespace SoloCall

namespace Header

variable {line front gap rest : Text} {k : Cut} {header : Header}

structure PlacedAt (line : Text) (header : Header) (front gap rest : Text) : Prop where
  line_eq : line = front ++ header.name ++ gap ++ '(' :: (header.params ++ ')' :: rest)
  name_ne_nil : header.name ≠ []
  name_word : ∀ c ∈ header.name, isWord c = true
  params_open : ')' ∉ header.params

def EndsWords (front : Text) : Prop := ∀ c, front.getLast? = some c → isWord c = false

def IsArrowGap (gap : Text) : Prop :=
  ∃ before between : Text, gap = before ++ '=' :: between ∧ before.allBlank = true ∧
    (between.allBlank = true ∨ ∃ left right : Text, between = left ++ kw "async" ++ right ∧
      left.allBlank = true ∧ right.allBlank = true ∧ right ≠ [])

structure BindsArrow (front gap rest : Text) : Prop where
  binder : ∃ head ∈ [kw "const", kw "let", kw "var"],
    front.words = [head] ∨ front.words = [kw "export", head]
  gap_eq : IsArrowGap gap
  arrow : Text.startsWith (kw "=>") rest.skipBlanks = true

structure FollowsAccess (front rest : Text) : Prop where
  access : ∃ blanks, ∃ access ∈ accessWords, front = blanks ++ access ∧ blanks.allBlank = true
  block : opensBlock rest = true

end Header

def Language.controlWords : Language → List Text
  | .python | .unknown | .go => []
  | .java => [Header.kw "if", Header.kw "for", Header.kw "while"]
  | .c | .cpp => [Header.kw "if", Header.kw "for", Header.kw "while", Header.kw "switch"]
  | .javascript | .typescript =>
      [Header.kw "if", Header.kw "for", Header.kw "while", Header.kw "switch", Header.kw "catch"]

def Language.isScript (language : Language) : Prop :=
  language = .javascript ∨ language = .typescript

namespace Header

/-- A header of the language as the line has it: no control word, with blanks alone between its
name and its parameters, unless it is an arrow function. -/
structure Reports (language : Language) (line : Text) (header : Header) (front gap rest : Text) :
    Prop extends PlacedAt line header front gap rest where
  gap_eq : gap.allBlank = true ∨ language.isScript ∧ BindsArrow front gap rest
  not_control : header.name ∉ language.controlWords

theorem endsWords_of_blank (h : ∀ c, front.getLast? = some c → isBlank c = true) :
    EndsWords front :=
  fun c hc => Text.isWord_of_isBlank (h c hc)

theorem EndsWords.append {left right : Text} (hl : EndsWords left) (hr : EndsWords right) :
    EndsWords (left ++ right) := by
  intro c hc
  rw [List.getLast?_append, Option.or_eq_some_iff] at hc
  rcases hc with hc | ⟨-, hc⟩
  · exact hr c hc
  · exact hl c hc

/-- The last plain word before the parameter list is a name in its place. -/
theorem exists_placedAt (init : List Text) {name : Text} (hk : cut? line = some k)
    (hw : k.front.plainWords? = some (init ++ [name])) (indent : Nat) :
    ∃ front gap, PlacedAt line ⟨name, k.inside, indent⟩ front gap k.rest ∧
      gap.allBlank = true ∧ EndsWords front ∧ front.words = init := by
  obtain ⟨hline, -, hinside⟩ := cut?_eq_some hk
  obtain ⟨front, gap, hlast, hinit, hname⟩ := Text.exists_plain_lastWord _ hw
  refine ⟨front, gap, ⟨?_, hlast.ne_nil, hname, hinside⟩, hlast.behind_blank,
    endsWords_of_blank hlast.front_blank, hinit⟩
  rw [hline, hlast.eq]

/-- A whole word before blanks and a parameter list. -/
def PlacesWord (line : Text) (header : Header) : Prop :=
  ∃ front gap rest, PlacedAt line header front gap rest ∧ gap.allBlank = true ∧ EndsWords front

theorem suite?_places (h : suite? line = some header) : PlacesWord line header := by
  simp only [suite?, Option.bind_eq_bind, Option.bind_eq_some_iff] at h
  obtain ⟨k, hk, words, hw, h⟩ := h
  split at h
  · rename_i head name
    obtain ⟨-, -, h⟩ := Option.bind_eq_some_iff.1 h
    obtain rfl := Option.some.inj h
    obtain ⟨front, gap, hplaced, hgap, hfront, -⟩ :=
      exists_placedAt [head] hk hw line.indent
    exact ⟨front, gap, k.rest, hplaced, hgap, hfront⟩
  · cases h

theorem member?_places (h : member? line = some header) :
    PlacesWord line header ∧ header.name ∉ Language.java.controlWords := by
  simp only [member?, Option.bind_eq_bind, Option.bind_eq_some_iff] at h
  obtain ⟨k, hk, words, hw, h⟩ := h
  split at h
  · rename_i name type modifiers hwords
    simp only [Option.bind_eq_some_iff, Option.guard_eq_some'] at h
    obtain ⟨-, -, -, hcontrol, h⟩ := h
    obtain rfl := Option.some.inj h
    obtain rfl := List.reverse_eq_iff.1 hwords
    rw [List.reverse_cons] at hw
    obtain ⟨front, gap, hplaced, hgap, hfront, -⟩ := exists_placedAt _ hk hw 0
    exact ⟨⟨front, gap, k.rest, hplaced, hgap, hfront⟩, by simpa [Language.controlWords] using hcontrol⟩
  · cases h

theorem func?_places (h : func? line = some header) : PlacesWord line header := by
  simp only [func?, Option.bind_eq_bind, Option.bind_eq_some_iff] at h
  obtain ⟨k, hk, words, hw, h⟩ := h
  split at h
  · rename_i head name
    obtain ⟨-, -, h⟩ := Option.bind_eq_some_iff.1 h
    obtain rfl := Option.some.inj h
    obtain ⟨front, gap, hplaced, hgap, hfront, -⟩ := exists_placedAt [head] hk hw 0
    exact ⟨front, gap, k.rest, hplaced, hgap, hfront⟩
  · simp only [Option.bind_eq_some_iff] at h
    obtain ⟨-, -, -, -, m, hm, inner, hinner, h⟩ := h
    split at h
    · rename_i name
      obtain rfl := Option.some.inj h
      obtain ⟨front, gap, hplaced, hgap, hfront, -⟩ := exists_placedAt [] hm hinner 0
      obtain ⟨hline, -, -⟩ := cut?_eq_some hk
      refine ⟨k.front ++ '(' :: k.inside ++ [')'] ++ front, gap, m.rest,
        ⟨?_, hplaced.name_ne_nil, hplaced.name_word, hplaced.params_open⟩, hgap, ?_⟩
      · rw [hline, hplaced.line_eq]
        simp
      · have hclose : EndsWords (k.front ++ '(' :: k.inside ++ [')']) := by
          intro c hc
          rw [List.getLast?_concat] at hc
          obtain rfl := Option.some.inj hc
          rfl
        exact hclose.append hfront
    · cases h
  · cases h

theorem declarator?_places (h : declarator? line = some header) :
    PlacesWord line header ∧ header.name ∉ Language.c.controlWords := by
  simp only [declarator?, Option.bind_eq_bind, Option.bind_eq_some_iff, Option.guard_eq_some'] at h
  obtain ⟨k, hk, -, hcut, words, -, -, -, -, hcontrol, h⟩ := h
  obtain rfl := Option.some.inj h
  obtain ⟨hline, -, hinside⟩ := cut?_eq_some hk
  have hname := Text.dropEndWhile_append_endWhile isWord k.front.trimEnd
  have hgap := Text.dropEndWhile_append_endWhile isBlank k.front
  obtain ⟨hne, hblank⟩ : (k.front.trimEnd.endWhile isWord).isEmpty = false ∧
      (k.front.trimEnd.dropEndWhile isWord).getLast?.any isBlank = true := by simpa using hcut
  refine ⟨⟨k.front.trimEnd.dropEndWhile isWord, k.front.endWhile isBlank, k.rest,
    ⟨?_, ?_, fun c => Text.mem_endWhile_imp, hinside⟩, ?_, ?_⟩, by simpa [Language.controlWords] using hcontrol⟩
  · rw [hname, Text.trimEnd, hgap]
    exact hline
  · exact List.isEmpty_eq_false_iff.1 hne
  · exact List.all_eq_true.2 fun c => Text.mem_endWhile_imp
  · apply endsWords_of_blank
    intro c hc
    simpa [hc] using hblank

theorem named?_places (h : named? line = some header) : PlacesWord line header := by
  simp only [named?, Option.bind_eq_bind, Option.bind_eq_some_iff] at h
  obtain ⟨k, hk, words, hw, h⟩ := h
  split at h
  · rename_i name head modifiers hwords
    simp only [Option.bind_eq_some_iff] at h
    obtain ⟨-, -, -, -, h⟩ := h
    obtain rfl := Option.some.inj h
    obtain rfl := List.reverse_eq_iff.1 hwords
    rw [List.reverse_cons] at hw
    obtain ⟨front, gap, hplaced, hgap, hfront, -⟩ := exists_placedAt _ hk hw 0
    exact ⟨front, gap, k.rest, hplaced, hgap, hfront⟩
  · cases h

theorem allBlank_or_async_of_startsArrow {t : Text} (h : startsArrow t = true) :
    t.allBlank = true ∨ ∃ left right : Text, t = left ++ kw "async" ++ right ∧
      left.allBlank = true ∧ right.allBlank = true ∧ right ≠ [] := by
  rw [startsArrow] at h
  split at h
  · rename_i hw
    left
    rw [Text.plainWords?] at hw
    split at hw
    · exact Text.allBlank_of_words_eq_nil (Option.some.inj hw)
    · cases hw
  · rename_i w hw
    right
    obtain ⟨hasync, hend⟩ : w = kw "async" ∧ t.getLast?.any isBlank = true := by simpa using h
    subst hasync
    obtain ⟨left, right, hlast, hleft, -⟩ := Text.exists_plain_lastWord [] hw
    refine ⟨left, right, hlast.eq, Text.allBlank_of_words_eq_nil hleft, hlast.behind_blank, ?_⟩
    rintro rfl
    rw [hlast.eq] at hend
    simp [kw, show isBlank 'c' = false from rfl] at hend
  · cases h

theorem binding?_places (h : binding? line = some header) :
    ∃ front gap rest, PlacedAt line header front gap rest ∧ EndsWords front ∧
      BindsArrow front gap rest := by
  simp only [binding?, Option.bind_eq_bind, Option.bind_eq_some_iff] at h
  obtain ⟨k, hk, ⟨left, right⟩, heq, words, hw, h⟩ := h
  split at h
  · rename_i name head modifiers hwords
    simp only [Option.bind_eq_some_iff, Option.guard_eq_some'] at h
    obtain ⟨-, hhead, -, hmodifiers, -, harrow, h⟩ := h
    obtain rfl := Option.some.inj h
    obtain rfl := List.reverse_eq_iff.1 hwords
    rw [List.reverse_cons] at hw
    obtain ⟨hline, -, hinside⟩ := cut?_eq_some hk
    obtain ⟨hfront, -⟩ := Text.cut?_eq_some heq
    obtain ⟨front, blanks, hlast, hinit, hname⟩ := Text.exists_plain_lastWord _ hw
    obtain ⟨hright, harrow⟩ := Bool.and_eq_true_iff.1 harrow
    refine ⟨front, blanks ++ '=' :: right, k.rest, ⟨?_, hlast.ne_nil, hname, hinside⟩,
      endsWords_of_blank hlast.front_blank, ⟨head, by simpa using hhead, ?_⟩,
      ⟨blanks, right, rfl, hlast.behind_blank, allBlank_or_async_of_startsArrow hright⟩, harrow⟩
    · rw [hline, hfront, show left = front ++ name ++ blanks from hlast.eq]
      simp
    · rw [hinit]
      have hm : modifiers = [] ∨ modifiers = [kw "export"] := by simpa using hmodifiers
      rcases hm with rfl | rfl
      · exact Or.inl rfl
      · exact Or.inr rfl
  · cases h

theorem withoutAccess_cases (w : Text) :
    withoutAccess w = w ∨
      ∃ access ∈ accessWords, w = access ++ withoutAccess w ∧ withoutAccess w ≠ [] := by
  rw [withoutAccess]
  split
  · rename_i c r h
    right
    obtain ⟨access, hmem, hafter⟩ := List.exists_of_findSome?_eq_some h
    exact ⟨access, hmem, Text.after?_eq_some_iff.1 hafter, by simp⟩
  · exact Or.inl rfl

theorem shorthandName?_cases {words : List Text} {name : Text}
    (h : shorthandName? words = some name) :
    (∃ init, words = init ++ [name]) ∨
      ∃ access ∈ accessWords, words = [access ++ name] ∧ name ≠ [] := by
  rw [shorthandName?.eq_def] at h
  split at h
  · rename_i w
    obtain rfl := Option.some.inj h
    rcases withoutAccess_cases w with hw | ⟨access, hmem, hw, hne⟩
    · exact Or.inl ⟨[], by rw [hw]; rfl⟩
    · exact Or.inr ⟨access, hmem, by rw [← hw], hne⟩
  · rename_i m last
    split at h
    · obtain rfl := Option.some.inj h
      exact Or.inl ⟨[m], rfl⟩
    · cases h
  · rename_i a m last
    split at h
    · obtain rfl := Option.some.inj h
      exact Or.inl ⟨[a, m], rfl⟩
    · cases h
  · cases h

theorem shorthand?_places (h : shorthand? line = some header) :
    ∃ front gap rest, PlacedAt line header front gap rest ∧ gap.allBlank = true ∧
      (EndsWords front ∨ FollowsAccess front rest) := by
  simp only [shorthand?, Option.bind_eq_bind, Option.bind_eq_some_iff, Option.guard_eq_some'] at h
  obtain ⟨k, hk, name, ⟨words, hw, hname⟩, -, hblock, h⟩ := h
  obtain rfl := Option.some.inj h
  rcases shorthandName?_cases hname with ⟨init, rfl⟩ | ⟨access, hmem, rfl, hne⟩
  · obtain ⟨front, gap, hplaced, hgap, hfront, -⟩ := exists_placedAt _ hk hw 0
    exact ⟨front, gap, k.rest, hplaced, hgap, Or.inl hfront⟩
  · obtain ⟨front, gap, hplaced, hgap, -, hwords⟩ := exists_placedAt [] hk hw 0
    refine ⟨front ++ access, gap, k.rest, ⟨?_, hne, ?_, hplaced.params_open⟩, hgap,
      Or.inr ⟨⟨front, access, hmem, rfl, Text.allBlank_of_words_eq_nil hwords⟩, hblock⟩⟩
    · rw [hplaced.line_eq]
      simp
    · exact fun c hc => hplaced.name_word c (List.mem_append_right access hc)

theorem script?_places (h : script? line = some header) :
    (∃ front gap rest, PlacedAt line header front gap rest ∧
      (gap.allBlank = true ∨ BindsArrow front gap rest) ∧
      (EndsWords front ∨ FollowsAccess front rest)) ∧
    header.name ∉ Language.javascript.controlWords := by
  simp only [script?, Option.bind_eq_bind, Option.bind_eq_some_iff, Option.guard_eq_some'] at h
  obtain ⟨found, hfound, -, hcontrol, h⟩ := h
  obtain rfl := Option.some.inj h
  refine ⟨?_, by simpa [Language.controlWords] using hcontrol⟩
  simp only [Option.orElse_eq_orElse, Option.orElse_eq_or, Option.or_eq_some_iff] at hfound
  rcases hfound with hnamed | ⟨-, hbinding | ⟨-, hshort⟩⟩
  · obtain ⟨front, gap, rest, hplaced, hgap, hfront⟩ := named?_places hnamed
    exact ⟨front, gap, rest, hplaced, Or.inl hgap, Or.inl hfront⟩
  · obtain ⟨front, gap, rest, hplaced, hfront, hgap⟩ := binding?_places hbinding
    exact ⟨front, gap, rest, hplaced, Or.inr hgap, Or.inl hfront⟩
  · obtain ⟨front, gap, rest, hplaced, hgap, hfront⟩ := shorthand?_places hshort
    exact ⟨front, gap, rest, hplaced, Or.inl hgap, hfront⟩

theorem PlacesWord.reports {language : Language} (h : PlacesWord line header)
    (hc : header.name ∉ language.controlWords) :
    ∃ front gap rest, Reports language line header front gap rest ∧ EndsWords front := by
  obtain ⟨front, gap, rest, hplaced, hgap, hfront⟩ := h
  exact ⟨front, gap, rest, ⟨hplaced, Or.inl hgap, hc⟩, hfront⟩

theorem script?_reports {language : Language} (hl : language.isScript)
    (h : script? line = some header) :
    ∃ front gap rest, Reports language line header front gap rest ∧
      (EndsWords front ∨ FollowsAccess front rest) := by
  obtain ⟨⟨front, gap, rest, hplaced, hgap, hfront⟩, hcontrol⟩ := script?_places h
  refine ⟨front, gap, rest, ⟨hplaced, hgap.imp_right fun hg => ⟨hl, hg⟩, ?_⟩, hfront⟩
  rcases hl with rfl | rfl <;> exact hcontrol

/-- A recognised header reports a whole word and the whole text of a parameter list, and no
control word. A method shorthand of a script alone may report the tail of a word, behind an access
level that the word starts with. -/
theorem recognise?_reports {language : Language} (h : recognise? language line = some header) :
    ∃ front gap rest, Reports language line header front gap rest ∧
      (EndsWords front ∨ language.isScript ∧ FollowsAccess front rest) := by
  have hword : (PlacesWord line header ∧ header.name ∉ language.controlWords) ∨
      language.isScript ∧ script? line = some header := by
    cases language with
    | python | unknown => exact Or.inl ⟨suite?_places h, List.not_mem_nil⟩
    | java => exact Or.inl (member?_places h)
    | go => exact Or.inl ⟨func?_places h, List.not_mem_nil⟩
    | c | cpp => exact Or.inl (declarator?_places h)
    | javascript => exact Or.inr ⟨Or.inl rfl, h⟩
    | typescript => exact Or.inr ⟨Or.inr rfl, h⟩
  rcases hword with ⟨hplaces, hcontrol⟩ | ⟨hl, hscript⟩
  · obtain ⟨front, gap, rest, hreports, hfront⟩ := hplaces.reports hcontrol
    exact ⟨front, gap, rest, hreports, Or.inl hfront⟩
  · obtain ⟨front, gap, rest, hreports, hfront⟩ := script?_reports hl hscript
    exact ⟨front, gap, rest, hreports, hfront.imp_right fun hf => ⟨hl, hf⟩⟩

theorem recognise?_reports_method :
    recognise? .go "func (s *Stack) Push(v int) \x7b".toList =
        some ⟨"Push".toList, "v int".toList, 0⟩ ∧
      ∃ front gap rest,
        Reports .go "func (s *Stack) Push(v int) \x7b".toList ⟨"Push".toList, "v int".toList, 0⟩
          front gap rest ∧
        (EndsWords front ∨ Language.isScript .go ∧ FollowsAccess front rest) :=
  have h : recognise? .go "func (s *Stack) Push(v int) \x7b".toList =
      some ⟨"Push".toList, "v int".toList, 0⟩ := by rfl
  ⟨h, recognise?_reports h⟩

/-- A method named `publicKey` is reported as `Key`, whose only place on the line is inside the
longer word. -/
theorem recognise?_splits_word :
    ¬∀ (language : Language) (line : Text) (header : Header),
      recognise? language line = some header →
      ∃ front gap rest, Reports language line header front gap rest ∧ EndsWords front := by
  intro hall
  obtain ⟨front, gap, rest, hreports, hfront⟩ :=
    hall .javascript "publicKey(id) \x7b".toList ⟨"Key".toList, "id".toList, 0⟩ (by rfl)
  have hline : "publicKey(id) \x7b".toList =
      front ++ ("Key".toList ++ (gap ++ '(' :: ("id".toList ++ ')' :: rest))) := by
    rw [hreports.line_eq]
    simp
  have honly : ∀ n < 16, "Key".toList <+: "publicKey(id) \x7b".toList.drop n → n = 6 := by
    decide
  have hlength : front.length < 16 := by
    have hle := congrArg List.length hline
    simp at hle
    omega
  have hsix : front.length = 6 := by
    apply honly _ hlength
    rw [hline, List.drop_left]
    exact List.prefix_append _ _
  have hpublic : front = "public".toList := by
    have htake : "publicKey(id) \x7b".toList.take 6 = front := by
      rw [hline, ← hsix, List.take_left]
    rw [← htake]
    rfl
  have hc : isWord 'c' = false := hfront 'c' (by rw [hpublic]; rfl)
  cases hc

end Header

end SoloCall
