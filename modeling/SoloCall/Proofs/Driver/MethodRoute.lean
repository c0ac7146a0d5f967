import SoloCall.Parameter
import SoloCall.Proofs.Driver.Contents
import SoloCall.Proofs.Header.Name
import SoloCall.Proofs.Text.Occurrence

namespace SoloCall

namespace Parameter

variable {first params : Text}

def firstName? (params : Text) : Option Text :=
  (declarations params).head?.bind fun first => first.word?.map Prod.fst

theorem self_prefix_trim {piece : Text} (h : self <+: piece) : self <+: piece.trim := by
  obtain ⟨behind, rfl⟩ := h
  have hskip : Text.skipBlanks (self ++ behind) = self ++ behind :=
    Text.skipBlanks_cons_of_not_blank rfl _
  rw [Text.trim, hskip, Text.trimEnd, Text.dropEndWhile_append]
  split
  · exact List.prefix_rfl
  · exact List.prefix_append _ _

theorem head?_declarations_of_self (h : self <+: params) :
    ∃ first, (declarations params).head? = some first ∧ self <+: first := by
  obtain ⟨piece, rest, hs⟩ := List.exists_cons_of_ne_nil (Text.split_ne_nil ',' params)
  have hpiece : self <+: piece := by
    have hjoin := Text.join_split ',' params
    rw [hs] at hjoin
    cases rest with
    | nil => rwa [show params = piece from hjoin.symm] at h
    | cons next rest =>
        rw [Text.join_cons_cons, List.append_assoc] at hjoin
        rw [← hjoin] at h
        exact Text.prefix_of_prefix_append_cons (by decide) h
  have htrim := self_prefix_trim hpiece
  have hne : (!piece.trim.isEmpty) = true := by
    obtain ⟨behind, hb⟩ := htrim
    rw [← hb]
    rfl
  refine ⟨piece.trim, ?_, htrim⟩
  rw [declarations, hs, List.map_cons, List.filter_cons, if_pos hne]
  rfl

theorem word?_of_self (h : self <+: first) :
    ∃ name rest, first.word? = some (name, rest) ∧ self <+: name := by
  obtain ⟨behind, rfl⟩ := h
  have hword : ∀ c ∈ self, isWord c = true := List.all_eq_true.1 rfl
  refine ⟨self ++ behind.takeWhile isWord, behind.dropWhile isWord, ?_, List.prefix_append _ _⟩
  rw [Text.word?, List.takeWhile_append_of_pos hword, List.dropWhile_append_of_pos hword]
  rfl

theorem self_prefix_iff (hfirst : ∀ first ∈ (declarations params).head?, first <+: params)
    (hends : ∀ name ∈ firstName? params, self <+: name → name = self) :
    self <+: params ↔ firstName? params = some self := by
  constructor
  · intro h
    obtain ⟨first, hhead, hself⟩ := head?_declarations_of_self h
    obtain ⟨name, rest, hname, hlong⟩ := word?_of_self hself
    have hfound : firstName? params = some name := by
      rw [firstName?, hhead, Option.bind_some, hname]
      rfl
    rw [hfound, hends name hfound hlong]
  · intro h
    obtain ⟨first, hhead, hname⟩ := Option.bind_eq_some_iff.1 h
    obtain ⟨⟨name, rest⟩, hword, rfl⟩ := Option.map_eq_some_iff.1 hname
    obtain ⟨-, -, hcut⟩ := Text.word?_eq_some hword
    have hprefix : self <+: first := ⟨rest, hcut.symm⟩
    exact hprefix.trans (hfirst first hhead)

end Parameter

namespace Driver

variable {c : Context} {place : Place} {line name : Text} {header : Header}

def methodHead (name : Text) : Text := wordDef ++ ' ' :: name

def methodMark (name : Text) : Text := methodHead name ++ '(' :: Parameter.self

theorem isInstanceMethod_iff (source name : Text) :
    isInstanceMethod source name = true ↔ methodMark name <:+: source := by
  rw [← Text.hasPart_iff_infix, isInstanceMethod, methodMark, methodHead]
  rfl

namespace Context

def functionValues (c : Context) (place : Place) : Assignment := [
  (.directory, forwardSlashes place.directory), (.module, place.stem), (.function, c.function),
  (.arguments, c.argumentText)]

def methodValues (c : Context) (place : Place) (className : Text) : Assignment := [
  (.directory, forwardSlashes place.directory), (.module, place.stem), (.className, className),
  (.function, c.function), (.arguments, c.argumentText)]

/-- The driver makes an object of some class, or there is none for want of a class. -/
def PlansMethod (c : Context) (place : Place) : Prop :=
  c.plan = .error (.classNotFound c.function) ∨
    ∃ className plan, c.plan = .ok plan ∧
      plan.HasContents (pythonMethod.render (c.methodValues place className))

/-- The driver calls the function by its name. -/
def PlansFunction (c : Context) (place : Place) : Prop :=
  ∃ plan, c.plan = .ok plan ∧ plan.HasContents (pythonFunction.render (c.functionValues place))

end Context

namespace Template

def substitute (values : Assignment) (t : Text) : Text :=
  values.foldl (fun t v => Text.replaceAll v.1.placeholder v.2 t) t

theorem substitute_append_cons {d : Char} (hd : isPlaceholderChar d = false) (values : Assignment)
    (a b : Text) :
    substitute values (a ++ d :: b) = substitute values a ++ d :: substitute values b := by
  induction values generalizing a b with
  | nil => rfl
  | cons v rest ih =>
      have hseam := Text.replaceAll_append_cons v.1.placeholder_ne_nil
        (v.1.not_mem_placeholder hd) v.2 a b
      rw [substitute, List.foldl_cons, hseam]
      exact ih _ _

theorem substitute_cons_of_not_hasPart {k : Key} {t : Text} (h : Text.hasPart k.placeholder t = false)
    (value : Text) (values : Assignment) :
    substitute ((k, value) :: values) t = substitute values t := by
  have hnot : ¬ k.placeholder <:+: t := by
    rw [← Text.hasPart_iff_infix, h]
    simp
  rw [substitute, List.foldl_cons, Text.replaceAll_of_not_infix k.placeholder_ne_nil hnot]
  rfl

end Template

def pythonCall : Template := pythonFunction.drop 16

theorem pythonFunction_text : ∃ front, pythonFunction.text = front ++ ' ' :: pythonCall.text := by
  refine ⟨(Template.text (pythonFunction.take 16)).dropLast, ?_⟩
  unfold pythonCall pythonFunction
  repeat rw [lit_ofList]
  rfl

theorem pythonMethod_text : ∃ front, pythonMethod.text = front ++ '.' :: pythonCall.text := by
  refine ⟨(Template.text (pythonMethod.take 20)).dropLast, ?_⟩
  unfold pythonCall pythonFunction pythonMethod
  repeat rw [lit_ofList]
  rfl

theorem substitute_pythonCall (c : Context) (place : Place) (className : Text) :
    Template.substitute (c.methodValues place className) pythonCall.text =
      Template.substitute (c.functionValues place) pythonCall.text := by
  have hkeys : ∀ k ∈ [Key.directory, .module, .className],
      Text.hasPart k.placeholder pythonCall.text = false := by
    unfold pythonCall pythonFunction
    repeat rw [lit_ofList]
    decide
  rw [Context.methodValues, Context.functionValues]
  have hdirectory := Template.substitute_cons_of_not_hasPart (hkeys .directory (by simp))
  have hmodule := Template.substitute_cons_of_not_hasPart (hkeys .module (by simp))
  have hclass := Template.substitute_cons_of_not_hasPart (hkeys .className (by simp))
  rw [hdirectory, hmodule, hclass, hdirectory, hmodule]

theorem pythonMethod_render_ne (c : Context) (place : Place) (className : Text) :
    pythonMethod.render (c.methodValues place className) ≠
      pythonFunction.render (c.functionValues place) := by
  intro h
  obtain ⟨front, hf⟩ := pythonFunction_text
  obtain ⟨front', hm⟩ := pythonMethod_text
  have hsame : Template.substitute (c.methodValues place className) pythonMethod.text =
      Template.substitute (c.functionValues place) pythonFunction.text := h
  rw [hf, hm, Template.substitute_append_cons rfl, Template.substitute_append_cons rfl,
    substitute_pythonCall] at hsame
  obtain ⟨-, hcall⟩ := List.append_inj' hsame rfl
  cases (List.cons.inj hcall).1

theorem plansMethod_of_isInstanceMethod (hl : c.language = .python)
    (hp : c.source.place? = some place) (h : isInstanceMethod c.sourceText c.function = true) :
    c.PlansMethod place := by
  cases hs : c.scheme? place with
  | none =>
      left
      rw [Context.plan, hp]
      simp only [hl]
      exact pythonPlan_of_scheme?_eq_none hl hs
  | some s =>
      right
      obtain ⟨plan, hplan, hcontents⟩ := plan_of_scheme? hp hs
      simp only [Context.scheme?, hl, if_pos h] at hs
      obtain ⟨className, -, rfl⟩ := Option.map_eq_some_iff.1 hs
      exact ⟨className, plan, hplan, hcontents⟩

theorem plansFunction_of_not_isInstanceMethod (hl : c.language = .python)
    (hp : c.source.place? = some place) (h : ¬ isInstanceMethod c.sourceText c.function = true) :
    c.PlansFunction place := by
  have hs : c.scheme? place = some ⟨pythonFunction, [
      (.directory, forwardSlashes place.directory), (.module, place.stem),
      (.function, c.function)]⟩ := by
    simp only [Context.scheme?, hl, if_neg h]
  exact plan_of_scheme? hp hs

theorem not_plansMethod_and_plansFunction : ¬ (c.PlansMethod place ∧ c.PlansFunction place) := by
  rintro ⟨hmethod, plan, hplan, hfunction⟩
  rcases hmethod with herror | ⟨className, plan', hplan', hcontents⟩
  · cases herror.symm.trans hplan
  · obtain rfl := Except.ok.inj (hplan.symm.trans hplan')
    exact pythonMethod_render_ne c place className (hcontents.unique hfunction)

theorem plansMethod_iff (hl : c.language = .python) (hp : c.source.place? = some place) :
    c.PlansMethod place ↔ methodMark c.function <:+: c.sourceText := by
  rw [← isInstanceMethod_iff]
  constructor
  · intro h
    by_contra hn
    exact not_plansMethod_and_plansFunction
      ⟨h, plansFunction_of_not_isInstanceMethod hl hp hn⟩
  · exact plansMethod_of_isInstanceMethod hl hp

/-- The header's line is written closely: one blank before the name, none behind it and none before
the first parameter. Nothing else in the source looks like a method of this name, and the first
parameter's name does not go on behind `self`. -/
structure WrittenClosely (others : List Text) (line : Text) (header : Header) : Prop where
  close : ∃ blanks behind, line = blanks ++ methodHead header.name ++ '(' :: behind ∧
    blanks.allBlank = true ∧ ¬ methodMark header.name <:+: behind
  first_prefix : ∀ first ∈ (Parameter.declarations header.params).head?, first <+: header.params
  alone : ∀ other ∈ others, ¬ methodMark header.name <:+: other
  self_ends : ∀ name ∈ Parameter.firstName? header.params,
    Parameter.self <+: name → name = Parameter.self

theorem not_mem_methodHead {c : Char} (hname : ∀ c ∈ name, isWord c = true)
    (hdef : c ∉ wordDef ++ [' ']) (hc : isWord c = false) : c ∉ methodHead name := by
  intro h
  rw [methodHead, List.mem_append, List.mem_cons] at h
  rcases h with h | rfl | h
  · exact hdef (List.mem_append_left _ h)
  · exact hdef (by simp)
  · rw [hname c h] at hc
    cases hc

theorem exists_cut?_of_suite? (h : Header.suite? line = some header) :
    ∃ k, Header.cut? line = some k ∧ header.params = k.inside := by
  simp only [Header.suite?, Option.bind_eq_bind, Option.bind_eq_some_iff] at h
  obtain ⟨k, hk, words, hw, h⟩ := h
  split at h
  · obtain ⟨-, -, h⟩ := Option.bind_eq_some_iff.1 h
    obtain rfl := Option.some.inj h
    exact ⟨k, hk, rfl⟩
  · cases h

theorem WrittenClosely.methodMark_infix_iff {source : Text} {before after : List Text}
    (hlines : source.split '\n' = before ++ line :: after)
    (hheader : Header.recognise? .python line = some header)
    (hw : WrittenClosely (before ++ after) line header) :
    methodMark header.name <:+: source ↔ Parameter.self <+: header.params := by
  obtain ⟨front, gap, rest, hplaced, -, -⟩ := Header.suite?_places hheader
  obtain ⟨k, hk, hparams⟩ := exists_cut?_of_suite? hheader
  obtain ⟨hcut, hopen, hclose⟩ := Header.cut?_eq_some hk
  obtain ⟨blanks, behind, hclosely, hblank, hagain⟩ := hw.close
  have hparenthesis : '(' ∉ methodHead header.name :=
    not_mem_methodHead hplaced.name_word (by decide) rfl
  have hfront : '(' ∉ blanks ++ methodHead header.name := by
    rw [List.mem_append, not_or]
    exact ⟨Text.not_mem_of_allBlank hblank rfl, hparenthesis⟩
  have hbehind : behind = header.params ++ ')' :: k.rest := by
    have hfirst := Text.cut?_append_cons hopen (k.inside ++ ')' :: k.rest)
    rw [← hcut, hclosely, Text.cut?_append_cons hfront] at hfirst
    rw [hparams, (Prod.mk.inj (Option.some.inj hfirst)).2]
  constructor
  · intro h
    have hbreak : '\n' ∉ methodMark header.name := by
      rw [methodMark, List.mem_append, not_or]
      exact ⟨not_mem_methodHead hplaced.name_word (by decide) rfl, by decide⟩
    obtain ⟨found, hfound, hinfix⟩ := Text.exists_mem_split_of_infix hbreak h
    have hline : methodMark header.name <:+: line := by
      rw [hlines, List.mem_append, List.mem_cons] at hfound
      rcases hfound with hother | rfl | hother
      · exact absurd hinfix (hw.alone found (List.mem_append_left _ hother))
      · exact hinfix
      · exact absurd hinfix (hw.alone found (List.mem_append_right _ hother))
    rw [hclosely] at hline
    rcases Text.infix_append_cons hparenthesis hfront hline with ⟨-, hself⟩ | hlater
    · rw [hbehind] at hself
      exact Text.prefix_of_prefix_append_cons (by decide) hself
    · exact absurd hlater hagain
  · intro h
    have hself : Parameter.self <+: behind := by
      rw [hbehind]
      exact h.trans (List.prefix_append _ _)
    have hline : methodMark header.name <:+: line := by
      obtain ⟨tail, rfl⟩ := hself
      exact ⟨blanks, tail, by simp [hclosely, methodMark]⟩
    have hmem : line ∈ source.split '\n' := by simp [hlines]
    exact hline.trans (Text.infix_of_mem_split hmem)

/-- There is always one of the two kinds of driver, or no class. The name and `self` in the source
decide; for a header that is written closely this is whether its first parameter is `self`. -/
theorem plansMethod_decided (hl : c.language = .python) (hp : c.source.place? = some place) :
    (c.PlansMethod place ↔ ¬ c.PlansFunction place) ∧
    (c.PlansMethod place ↔ methodMark c.function <:+: c.sourceText) ∧
    ∀ before line after header, c.sourceText.split '\n' = before ++ line :: after →
      Header.recognise? .python line = some header → header.name = c.function →
      WrittenClosely (before ++ after) line header →
      (c.PlansMethod place ↔ Parameter.firstName? header.params = some Parameter.self) := by
  refine ⟨⟨fun h hf => not_plansMethod_and_plansFunction ⟨h, hf⟩, fun hn => ?_⟩,
    plansMethod_iff hl hp, ?_⟩
  · by_contra hm
    rw [plansMethod_iff hl hp, ← isInstanceMethod_iff] at hm
    exact hn (plansFunction_of_not_isInstanceMethod hl hp hm)
  · intro before line after header hlines hheader hname hw
    rw [plansMethod_iff hl hp, ← hname, hw.methodMark_infix_iff hlines hheader,
      Parameter.self_prefix_iff hw.first_prefix hw.self_ends]

def areaContext (sourceText : String) : Context where
  language := .python
  function := "area".toList
  args := []
  source := ⟨"/w/shape.py".toList, .exact⟩
  sourceText := sourceText.toList
  scratchId := scratchId 42 7 0
  scratchDirectory := "/t".toList
  toolchain := {}

def areaPlace : Place := ⟨"/w".toList, "shape.py".toList, "shape".toList⟩

theorem areaContext_place? (sourceText : String) :
    (areaContext sourceText).source.place? = some areaPlace := by
  show SourcePath.place? ⟨"/w/shape.py".toList, .exact⟩ = some areaPlace
  rfl

def shapeClass : String := "class Shape:\n    def area(self, k=2):\n        return k\n"

theorem plansMethod_decided_shape :
    (areaContext shapeClass).language = .python ∧
      (areaContext shapeClass).source.place? = some areaPlace ∧
      (areaContext shapeClass).sourceText.split '\n' =
        ["class Shape:".toList] ++ "    def area(self, k=2):".toList ::
          ["        return k".toList, []] ∧
      Header.recognise? .python "    def area(self, k=2):".toList =
        some ⟨"area".toList, "self, k=2".toList, 4⟩ ∧
      WrittenClosely (["class Shape:".toList] ++ ["        return k".toList, []])
        "    def area(self, k=2):".toList ⟨"area".toList, "self, k=2".toList, 4⟩ ∧
      (areaContext shapeClass).PlansMethod areaPlace := by
  have hlines : (areaContext shapeClass).sourceText.split '\n' =
      ["class Shape:".toList] ++ "    def area(self, k=2):".toList ::
        ["        return k".toList, []] := by rfl
  have hheader : Header.recognise? .python "    def area(self, k=2):".toList =
      some ⟨"area".toList, "self, k=2".toList, 4⟩ := by rfl
  have hw : WrittenClosely (["class Shape:".toList] ++ ["        return k".toList, []])
      "    def area(self, k=2):".toList ⟨"area".toList, "self, k=2".toList, 4⟩ := by
    refine ⟨⟨"    ".toList, "self, k=2):".toList, ?_⟩, ?_, ?_, ?_⟩ <;> decide
  obtain ⟨-, -, hclose⟩ := plansMethod_decided (c := areaContext shapeClass) rfl
    (areaContext_place? shapeClass)
  refine ⟨rfl, areaContext_place? shapeClass, hlines, hheader, hw, ?_⟩
  exact (hclose _ _ _ _ hlines hheader rfl hw).2 (by rfl)

def commentedFunction : String := "# def area(self) is for shapes\ndef area(r):\n    return r\n"

/-- A comment is enough for a method, though the one header of that name has no `self`. -/
theorem plansMethod_byComment :
    ¬ ∀ (c : Context) (place : Place) (before : List Text) (line : Text) (after : List Text)
      (header : Header), c.language = .python → c.source.place? = some place →
      c.sourceText.split '\n' = before ++ line :: after →
      Header.recognise? .python line = some header → header.name = c.function →
      (∀ other ∈ before ++ after, ∀ h, Header.recognise? .python other = some h →
        h.name ≠ c.function) →
      (c.PlansMethod place ↔ Parameter.firstName? header.params = some Parameter.self) := by
  intro hall
  have hlines : (areaContext commentedFunction).sourceText.split '\n' =
      ["# def area(self) is for shapes".toList] ++ "def area(r):".toList ::
        ["    return r".toList, []] := by decide
  have honly : ∀ other ∈ ["# def area(self) is for shapes".toList] ++ ["    return r".toList, []],
      Header.recognise? .python other = none := by decide
  have hroute := hall (areaContext commentedFunction) areaPlace _ _ _
    ⟨"area".toList, "r".toList, 0⟩ rfl (areaContext_place? commentedFunction) hlines
    (by rfl) rfl (fun other hother h hh => by rw [honly other hother] at hh; cases hh)
  have hmark : methodMark "area".toList <:+: commentedFunction.toList := by decide
  have hmethod := (plansMethod_iff (c := areaContext commentedFunction) rfl
    (areaContext_place? commentedFunction)).2 hmark
  have hself := hroute.1 hmethod
  revert hself
  decide

end Driver

end SoloCall
