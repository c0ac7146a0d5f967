import SoloCall.Header.Basic
import SoloCall.Language

namespace SoloCall

namespace Header

def kw (s : String) : Text := s.toList

def opensOrEnds (rest : Text) : Bool :=
  match rest.skipBlanks with
  | [] => true
  | '{' :: r => Text.allBlank r
  | _ => false

def opensSuite (rest : Text) : Bool :=
  match rest.skipBlanks with
  | ':' :: _ => true
  | '-' :: '>' :: r => (r.takeWhile (· ≠ '\n')).contains ':'
  | _ => false

def suite? (line : Text) : Option Header := do
  let k ← cut? line
  let [head, name] ← k.front.plainWords? | none
  guard (head = kw "def" && opensSuite k.rest)
  return ⟨name, k.inside, line.indent⟩

def accessWords : List Text := [kw "public", kw "private", kw "protected"]

def isModifierList : List Text → Bool
  | [] => true
  | [m] => m = kw "static" || accessWords.any fun a => m = a || m = a ++ kw "static"
  | [a, m] => accessWords.contains a && m = kw "static"
  | _ => false

def member? (line : Text) : Option Header := do
  let k ← cut? line
  let words ← k.front.plainWords?
  let name :: _type :: modifiers := words.reverse | none
  guard (isModifierList modifiers.reverse && opensOrEnds k.rest)
  guard (!(List.contains [kw "if", kw "for", kw "while"] name))
  return ⟨name, k.inside, 0⟩

def isReceiver (t : Text) : Bool :=
  match t.words with
  | [var, type] =>
    let base := match type with
      | '*' :: r => r
      | _ => type
    var.all isWord && !base.isEmpty && base.all isWord
      && !t.head?.any isBlank && !t.getLast?.any isBlank
  | _ => false

def func? (line : Text) : Option Header := do
  let k ← cut? line
  let words ← k.front.plainWords?
  match words with
  | [head, name] =>
    guard (head = kw "func")
    return ⟨name, k.inside, 0⟩
  | [head] =>
    guard (head = kw "func" && k.front.getLast?.any isBlank && isReceiver k.inside)
    guard (k.rest.head?.any isBlank)
    let m ← cut? k.rest
    let [name] ← m.front.plainWords? | none
    return ⟨name, m.inside, 0⟩
  | _ => none

def isSpecifierList : List Text → Bool
  | [_] => true
  | [s, _] => s = kw "static" || s = kw "inline"
  | [s, i, _] => s = kw "static" && i = kw "inline"
  | _ => false

def declarator? (line : Text) : Option Header := do
  let k ← cut? line
  let front := k.front.trimEnd
  let name := front.endWhile isWord
  let before := front.dropEndWhile isWord
  guard (!name.isEmpty && before.getLast?.any isBlank)
  let words ← (before.dropEndWhile fun c => isBlank c || c = '*').plainWords?
  guard (isSpecifierList words && opensOrEnds k.rest)
  guard (!(List.contains [kw "if", kw "for", kw "while", kw "switch"] name))
  return ⟨name, k.inside, 0⟩

def named? (line : Text) : Option Header := do
  let k ← cut? line
  let words ← k.front.plainWords?
  let name :: head :: modifiers := words.reverse | none
  guard (head = kw "function")
  guard ([[], [kw "async"], [kw "export"], [kw "export", kw "async"]].contains modifiers.reverse)
  return ⟨name, k.inside, 0⟩

def startsArrow (t : Text) : Bool :=
  match t.plainWords? with
  | some [] => true
  | some [w] => w = kw "async" && t.getLast?.any isBlank
  | _ => false

def binding? (line : Text) : Option Header := do
  let k ← cut? line
  let (left, right) ← Text.cut? '=' k.front
  let words ← left.plainWords?
  let name :: head :: modifiers := words.reverse | none
  guard ([kw "const", kw "let", kw "var"].contains head)
  guard ([[], [kw "export"]].contains modifiers)
  guard (startsArrow right && Text.startsWith (kw "=>") k.rest.skipBlanks)
  return ⟨name, k.inside, 0⟩

/-- The name left when an access level is taken off the front of a word. A bare access level is
itself a name. -/
def withoutAccess (w : Text) : Text :=
  match accessWords.findSome? fun a => Text.after? a w with
  | some (c :: r) => c :: r
  | _ => w

def shorthandName? : List Text → Option Text
  | [w] => some (withoutAccess w)
  | [m, name] =>
    if m = kw "async" || accessWords.any fun a => m = a || m = a ++ kw "async" then some name
    else none
  | [a, m, name] => if accessWords.contains a && m = kw "async" then some name else none
  | _ => none

def opensBlock (rest : Text) : Bool :=
  match rest.skipBlanks with
  | '{' :: _ => true
  | ':' :: r =>
    match (Text.skipBlanks r).word? with
    | some (_, after) => Text.startsWith ['{'] after.skipBlanks
    | none => false
  | _ => false

def shorthand? (line : Text) : Option Header := do
  let k ← cut? line
  let name ← k.front.plainWords?.bind shorthandName?
  guard (opensBlock k.rest)
  return ⟨name, k.inside, 0⟩

/-- The first of the three shapes that fits decides, also when its name is then turned down. -/
def script? (line : Text) : Option Header := do
  let h ← named? line <|> binding? line <|> shorthand? line
  guard (!(List.contains [kw "if", kw "for", kw "while", kw "switch", kw "catch"] h.name))
  return h

/-- The function header on a line of the language, if it is one. An unknown language is read
like Python. -/
def recognise? (language : Language) (line : Text) : Option Header :=
  match language with
  | .python | .unknown => suite? line
  | .java => member? line
  | .go => func? line
  | .c | .cpp => declarator? line
  | .javascript | .typescript => script? line

end Header

end SoloCall
