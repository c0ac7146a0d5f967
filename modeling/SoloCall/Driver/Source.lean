import SoloCall.Path
import SoloCall.Text.Utf8
import SoloCall.Text.Word

namespace SoloCall

namespace Driver

/-- How much of a path is text: all of it, its name at least, or not even that. -/
inductive Reading where
  | exact | name | none
  deriving DecidableEq, Repr

/-- A source's path as it reads. Bytes that are no text show as U+FFFD, and then `text` is not the
path itself; a name made of such bytes cannot be written into a driver. -/
structure SourcePath where
  text : Path
  reading : Reading := .exact
  deriving DecidableEq, Repr

namespace SourcePath

def ofBytes (bytes : Bytes) : SourcePath :=
  let units := Utf8.decode bytes
  let isNamed (piece : List (Option Char)) : Bool := !piece.isEmpty && piece != [some '.']
  let pieces := units.foldr (fun u (pieces : List (List (Option Char))) =>
    if u = some '/' then [] :: pieces
    else match pieces with
      | [] => [[u]]
      | piece :: rest => (u :: piece) :: rest) [[]]
  { text := units.map fun u => u.getD '\uFFFD'
    reading :=
      if units.all Option.isSome then .exact
      else if ((pieces.filter isNamed).getLast?.getD []).all Option.isSome then .name
      else .none }

end SourcePath

structure Place where
  directory : Path
  fileName : Text
  stem : Text
  deriving DecidableEq, Repr

def SourcePath.place? (p : SourcePath) : Option Place := do
  guard (p.reading ≠ .none)
  let fileName ← Path.fileName? p.text
  let stem ← Path.stem? p.text
  let directory := (Path.parent? p.text).getD []
  return ⟨if directory.isEmpty then ['.'] else directory, fileName, stem⟩

def wordDef : Text := "def".toList

def isInstanceMethod (source name : Text) : Bool :=
  Text.hasPart (wordDef ++ ' ' :: name ++ "(self".toList) source

def startsCall (name t : Text) : Bool :=
  match Text.after? name t with
  | some r => Text.startsWith ['('] r.skipBlanks
  | none => false

def startsBlankCall (name : Text) : Text → Bool
  | [] => false
  | c :: r => isBlank c && (startsCall name r || startsBlankCall name r)

def definesLater (name : Text) : Text → Bool
  | [] => false
  | c :: r =>
    (match Text.after? wordDef (c :: r) with
      | some after => startsBlankCall name after
      | none => false) || definesLater name r

def classHere? (method t : Text) : Option Text := do
  let after ← Text.after? "class".toList t
  guard (after.head?.any isBlank)
  let (name, rest) ← after.skipBlanks.word?
  let (_, body) ← Text.cut? ':' rest
  guard (definesLater method body)
  return name

/-- The first class of the source that a definition of the method follows, in whatever class that
definition stands. -/
def enclosingClass? (method : Text) : Text → Option Text
  | [] => none
  | c :: r => classHere? method (c :: r) <|> enclosingClass? method r

def callsOnLine (name : Text) : (before : Char) → Text → Bool
  | before, [] => Text.isBoundary (some before) none && startsCall name []
  | before, c :: r =>
    (Text.isBoundary (some before) (some c) && startsCall name (c :: r))
      || (c ≠ '\n' && callsOnLine name c r)

def startsStatic (name t : Text) : Bool :=
  match Text.after? "static".toList t.skipBlanks with
  | some r => Text.isBoundary (some 'c') r.head? && callsOnLine name 'c' r
  | none => false

def afterLineEnds : Text → List Text
  | [] => []
  | c :: r => if c = '\n' then r :: afterLineEnds r else afterLineEnds r

def lineStarts (t : Text) : List Text := t :: afterLineEnds t

def prototypeRest? (name : Text) : Text → Option Text
  | [] => none
  | c :: r => do
    guard (isBlank c)
    match prototypeRest? name r with
    | some rest => return c :: rest
    | none =>
      let after ← Text.after? name r
      let list ← Text.after? ['('] after.skipBlanks
      let (inside, _) ← Text.cut? ')' list
      return c :: name ++ after.takeWhile isBlank ++ '(' :: inside ++ [')']

def prototypeHere? (name t : Text) : Option Text := do
  let (type, rest) ← t.skipBlanks.word?
  let (star, rest) := match rest with
    | '*' :: r => (['*'], r)
    | _ => ([], rest)
  return type ++ star ++ (← prototypeRest? name rest)

/-- The declaration of a function by the first line that looks like its head. A static function
gets none, since the two would clash. -/
def forwardDeclaration? (source name : Text) : Option Text :=
  if (lineStarts source).any (startsStatic name) then none
  else ((lineStarts source).findSome? (prototypeHere? name)).map fun t => t ++ [';']

end Driver

end SoloCall
