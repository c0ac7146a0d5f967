import SoloCall.Language
import SoloCall.Text.Word

namespace SoloCall

structure Parameter where
  name : Text
  type : Text
  default? : Option Text := none
  deriving DecidableEq, Repr

namespace Parameter

def anyType : Text := "any".toList

def self : Text := "self".toList

/-- The declarations of a list: its comma-separated pieces without surrounding blanks, the empty
ones left out. -/
def declarations (raw : Text) : List Text :=
  ((raw.split ',').map Text.trim).filter fun t => !t.isEmpty

def defaultValue? (t : Text) : Option Text :=
  let value := t.skipBlanks
  if value.isEmpty || value.contains '\n' then none else some value

def annotated? (t : Text) : Option Parameter := do
  let (name, rest) ← t.word?
  match rest.skipBlanks with
  | [] => return ⟨name, anyType, none⟩
  | '=' :: r => return ⟨name, anyType, some (← defaultValue? r)⟩
  | ':' :: r =>
    match Text.cut? '=' r with
    | none =>
      guard !(Text.trim r).isEmpty
      return ⟨name, Text.trim r, none⟩
    | some (type, value) =>
      guard !type.isEmpty
      return ⟨name, type.trim, some (← defaultValue? value)⟩
  | _ => none

def bareName (word : Text) : Text :=
  (word.dropWhile fun c => c = '*' || c = '&').takeWhile (· ≠ '[')

def typed? (untyped : Text) (t : Text) : Option Parameter :=
  let name := bareName (t.endWhile fun c => !isBlank c)
  let type := (t.dropEndWhile fun c => !isBlank c).trimEnd
  if name.isEmpty then none
  else some ⟨name, if type.isEmpty then untyped else type, none⟩

def named? (t : Text) : Option Parameter :=
  match t.words with
  | [] => none
  | [name] => some ⟨name, "interface\x7b\x7d".toList, none⟩
  | name :: type => some ⟨name, Text.join [' '] type, none⟩

def bound? (t : Text) : Option Parameter :=
  let (declared, default?) := match Text.cut? '=' t with
    | some (declared, value) => (declared.trim, some value.trim)
    | none => (t, none)
  let (name, type) := match Text.cut? ':' declared with
    | some (name, type) => (name, type.trim)
    | none => (declared, anyType)
  let name := (name.trim.dropEndWhile (· = '?')).trim
  if name.isEmpty then none
  else some ⟨name, if type.isEmpty then anyType else type, default?⟩

def dropSelf : List Text → List Text
  | first :: rest => if first = self then rest else first :: rest
  | [] => []

/-- The parameters a list declares, in order. -/
def tokenize (language : Language) (raw : Text) : List Parameter :=
  match language with
  | .java => (declarations raw).filterMap (typed? "Object".toList)
  | .c | .cpp => (declarations raw).filterMap (typed? "int".toList)
  | .go => (declarations raw).filterMap named?
  | .javascript | .typescript => (declarations raw).filterMap bound?
  | .python | .unknown => (dropSelf (declarations raw)).filterMap annotated?

end Parameter

end SoloCall
