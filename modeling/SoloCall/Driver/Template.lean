import SoloCall.Text.Basic

namespace SoloCall

namespace Driver

inductive Key where
  | directory | module | className | function | arguments | runner | declaration | file | path
  | functionLiteral
  deriving DecidableEq, Repr

namespace Key

def name : Key → Text
  | directory => "dir".toList
  | module => "module".toList
  | className => "class".toList
  | function => "name".toList
  | arguments => "args".toList
  | runner => "runner".toList
  | declaration => "declaration".toList
  | file => "file".toList
  | path => "path".toList
  | functionLiteral => "name_literal".toList

def placeholder (k : Key) : Text := ['\x7b', '\x7b'] ++ k.name ++ ['\x7d', '\x7d']

end Key

inductive Piece where
  | text (t : Text)
  | hole (k : Key)
  deriving DecidableEq, Repr

abbrev Template := List Piece

abbrev Assignment := List (Key × Text)

namespace Template

def ofLines (lines : List (List Piece)) : Template :=
  lines.flatMap fun parts => parts ++ [.text ['\n']]

def text (template : Template) : Text :=
  template.flatMap fun
    | .text t => t
    | .hole k => k.placeholder

/-- Replaces every placeholder of the first key, then of the second, and so on. A value that
itself holds the placeholder of a later key is filled with the rest. -/
def render (template : Template) (values : Assignment) : Text :=
  values.foldl (fun t v => Text.replaceAll v.1.placeholder v.2 t) template.text

/-- Fills every hole with its value, and reads no value again. -/
def fill (template : Template) (values : Assignment) : Text :=
  template.flatMap fun
    | .text t => t
    | .hole k => (values.lookup k).getD k.placeholder

end Template

end Driver

end SoloCall
