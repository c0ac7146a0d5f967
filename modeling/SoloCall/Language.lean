import SoloCall.Path
import SoloCall.Text.Blank

namespace SoloCall

inductive Language where
  | python | java | go | c | cpp | javascript | typescript | unknown
  deriving DecidableEq, Repr

def Text.lower (t : Text) : Text := t.map Char.toLower

namespace Language

def all : List Language := [python, java, go, c, cpp, javascript, typescript, unknown]

def name : Language → Text
  | python => "python".toList
  | java => "java".toList
  | go => "go".toList
  | c => "c".toList
  | cpp => "cpp".toList
  | javascript => "javascript".toList
  | typescript => "typescript".toList
  | unknown => "unknown".toList

def ofName? (t : Text) : Option Language := all.find? fun l => l.name = t

def aliases : List (Text × Language) := [
  ("py".toList, python), ("golang".toList, go), ("c++".toList, cpp),
  ("js".toList, javascript), ("ts".toList, typescript)]

structure Unsupported where
  name : Text
  deriving DecidableEq, Repr

def Unsupported.message (e : Unsupported) : Text := "unsupported language: ".toList ++ e.name

def parse (t : Text) : Except Unsupported Language :=
  let t := t.trim.lower
  match ofName? t <|> aliases.lookup t with
  | some l => .ok l
  | none => .error ⟨t⟩

def extensions : List (Text × Language) := [
  ("py".toList, python), ("java".toList, java), ("go".toList, go),
  ("c".toList, c), ("h".toList, c),
  ("cpp".toList, cpp), ("cc".toList, cpp), ("cxx".toList, cpp), ("hpp".toList, cpp),
  ("js".toList, javascript), ("jsx".toList, javascript),
  ("ts".toList, typescript), ("tsx".toList, typescript)]

/-- The language of a file, by the extension of its last path component. -/
def classify (file : Path) : Language :=
  (extensions.lookup ((Path.extension? file).getD []).lower).getD unknown

def isExecutable (l : Language) : Bool := l != unknown

def isCompiled : Language → Bool
  | java | go | c | cpp => true
  | python | javascript | typescript | unknown => false

/-- Whether braces end a function body; indentation ends it otherwise. -/
def usesBraces : Language → Bool
  | python | unknown => false
  | java | go | c | cpp | javascript | typescript => true

end Language

end SoloCall
