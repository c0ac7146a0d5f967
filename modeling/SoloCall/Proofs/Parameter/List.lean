import SoloCall.Proofs.Parameter.Shape

namespace SoloCall.Parameter

def Declaration : Language → Type
  | .java | .c | .cpp => Typed
  | .go => Named
  | .javascript | .typescript => Bound
  | .python | .unknown => Annotated

variable {language : Language}

namespace Declaration

def text : {language : Language} → Declaration language → Text
  | .java, d | .c, d | .cpp, d => Typed.text d
  | .go, d => Named.text d
  | .javascript, d | .typescript, d => Bound.text d
  | .python, d | .unknown, d => Annotated.text d

def parameter : {language : Language} → Declaration language → Parameter
  | .java, d | .c, d | .cpp, d => Typed.parameter d
  | .go, d => Named.parameter d
  | .javascript, d | .typescript, d => Bound.parameter d
  | .python, d | .unknown, d => Annotated.parameter d

theorem isPiece_text (d : Declaration language) : IsPiece d.text := by
  cases language with
  | java | c | cpp => exact Typed.isPiece_text d
  | go => exact Named.isPiece_text d
  | javascript | typescript => exact Bound.isPiece_text d
  | python | unknown => exact Annotated.isPiece_text d

end Declaration

/-- A declaration among others, with the blanks around it. -/
structure Listed (language : Language) where
  before : Text
  declaration : Declaration language
  after : Text
  before_blank : before.allBlank = true
  after_blank : after.allBlank = true

namespace Listed

def text (d : Listed language) : Text := d.before ++ d.declaration.text ++ d.after

def parameter (d : Listed language) : Parameter := d.declaration.parameter

theorem trim_text (d : Listed language) : d.text.trim = d.declaration.text :=
  Text.trim_surrounded d.before_blank d.after_blank d.declaration.isPiece_text.trim_eq

theorem comma_notMem_text (d : Listed language) : ',' ∉ d.text := by
  simp only [text, List.mem_append, not_or]
  exact ⟨⟨Text.not_mem_of_allBlank d.before_blank (by decide),
    d.declaration.isPiece_text.comma_notMem⟩, Text.not_mem_of_allBlank d.after_blank (by decide)⟩

end Listed

def written (list : List (Listed language)) : Text := Text.join [','] (list.map Listed.text)

theorem declarations_written (list : List (Listed language)) :
    declarations (written list) = list.map fun d => d.declaration.text := by
  cases list with
  | nil => rfl
  | cons first rest =>
      have hcomma : ∀ piece ∈ (first :: rest).map Listed.text, ',' ∉ piece := by
        intro piece hp
        obtain ⟨d, -, rfl⟩ := List.mem_map.1 hp
        exact d.comma_notMem_text
      have hsplit : (written (first :: rest)).split ',' = (first :: rest).map Listed.text :=
        Text.split_join (by simp) hcomma
      have htrim : ((first :: rest).map Listed.text).map Text.trim =
          (first :: rest).map fun d => d.declaration.text := by
        rw [List.map_map]
        exact List.map_congr_left fun d _ => d.trim_text
      rw [declarations, hsplit, htrim, List.filter_eq_self]
      intro t ht
      obtain ⟨d, -, rfl⟩ := List.mem_map.1 ht
      simp [d.declaration.isPiece_text.ne_nil]

theorem filterMap_text (list : List (Listed language)) {read? : Text → Option Parameter}
    (h : ∀ d : Declaration language, read? d.text = some d.parameter) :
    (list.map fun d => d.declaration.text).filterMap read? = list.map Listed.parameter := by
  induction list with
  | nil => rfl
  | cons first rest ih =>
      rw [List.map_cons, List.filterMap_cons_some (h first.declaration), ih]
      rfl

theorem dropSelf_map {list : List (Listed language)}
    (h : ∀ first ∈ list.head?, first.declaration.text ≠ self) :
    dropSelf (list.map fun d => d.declaration.text) = list.map fun d => d.declaration.text := by
  cases list with
  | nil => rfl
  | cons first rest => exact if_neg (h first rfl)

/-- Parameters are read as they are declared, unless the first declaration is the receiver of a
method. -/
theorem tokenize_written (list : List (Listed language))
    (hself : language = .python ∨ language = .unknown →
      ∀ first ∈ list.head?, first.declaration.text ≠ self) :
    tokenize language (written list) = list.map Listed.parameter := by
  cases language with
  | java | c | cpp =>
      rw [tokenize, declarations_written]
      exact filterMap_text list fun d => Typed.typed?_text d _
  | go =>
      rw [tokenize, declarations_written]
      exact filterMap_text list Named.named?_text
  | javascript | typescript =>
      rw [tokenize, declarations_written]
      exact filterMap_text list Bound.bound?_text
  | python | unknown =>
      rw [tokenize, declarations_written, dropSelf_map (hself (by simp))]
      exact filterMap_text list Annotated.annotated?_text

def declaredLimit : Annotated where
  name := "limit".toList
  type? := some ⟨[], [' '], "int | None".toList, rfl, rfl, rfl, by decide, nofun⟩
  default? := some ⟨[' '], [' '], "f(k=1)".toList, rfl, rfl, rfl, by decide, nofun⟩
  name_ne_nil := nofun
  name_word := List.all_eq_true.1 (by rfl)
  type_ok := by rintro k ⟨⟩; decide
  default_ok := by rintro k ⟨⟩; decide

def declaredKey : Annotated where
  name := "key".toList
  type? := none
  default? := none
  name_ne_nil := nofun
  name_word := List.all_eq_true.1 (by rfl)
  type_ok := nofun
  default_ok := nofun

def limitAndKey : List (Listed .python) :=
  [⟨[' '], declaredLimit, [], rfl, rfl⟩, ⟨[], declaredKey, [' ', '\n'], rfl, rfl⟩]

theorem tokenize_written_limitAndKey :
    written limitAndKey = " limit: int | None = f(k=1),key \n".toList ∧
      tokenize .python (written limitAndKey) =
        [⟨"limit".toList, "int | None".toList, some "f(k=1)".toList⟩,
          ⟨"key".toList, anyType, none⟩] := by
  refine ⟨rfl, ?_⟩
  have hself : ∀ first ∈ limitAndKey.head?, first.declaration.text ≠ self := by
    rintro first ⟨⟩
    decide
  exact tokenize_written limitAndKey fun _ => hself

theorem tokenize_written_receiver (hl : language = .python ∨ language = .unknown)
    {receiver : Listed language} (h : receiver.declaration.text = self)
    (list : List (Listed language)) :
    tokenize language (written (receiver :: list)) = list.map Listed.parameter := by
  have hdrop : dropSelf ((receiver :: list).map fun d => d.declaration.text) =
      list.map fun d => d.declaration.text := if_pos h
  rcases hl with rfl | rfl
  all_goals
    rw [tokenize, declarations_written, hdrop]
    exact filterMap_text list Annotated.annotated?_text

end SoloCall.Parameter
