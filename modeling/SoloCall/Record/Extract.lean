import SoloCall.Header.Recognise
import SoloCall.Record.Basic

namespace SoloCall

namespace FunctionRecord

/-- How far a body reaches below its header: the lines kept, and the lines the scan passes over.
The second exceeds the first by the blank lines that end an indented body. -/
structure Span where
  kept : Nat
  passed : Nat
  deriving DecidableEq, Repr

def isDeeper (indent : Nat) (line : Text) : Bool := line.allBlank || indent < line.indent

def indentSpan (indent : Nat) (below : List Text) : Span :=
  let body := below.takeWhile (isDeeper indent)
  ⟨(body.reverse.dropWhile Text.allBlank).length, body.length⟩

def braceBalance (line : Text) : Int := (line.count '{' : Int) - line.count '}'

def linesToClose : (depth : Int) → List Text → Nat
  | _, [] => 0
  | depth, line :: rest =>
    if depth ≤ 0 then 0 else linesToClose (depth + braceBalance line) rest + 1

/-- A header with a brace opens one level, whatever else it holds. Without one, a lone brace on
the next line does. -/
def braceSpan (header : Text) (below : List Text) : Span :=
  let n :=
    if header.contains '{' then linesToClose 1 below
    else match below with
      | next :: rest => if next.trim = ['{'] then linesToClose 1 rest + 1 else 0
      | [] => 0
  ⟨n, n⟩

def bodySpan (language : Language) (header : Header) (line : Text) (below : List Text) : Span :=
  if language.usesBraces then braceSpan line below else indentSpan header.indent below

def ofHeader (language : Language) (number : Nat) (header : Header) (line : Text)
    (below : List Text) : FunctionRecord :=
  let kept := (bodySpan language header line below).kept
  { name := header.name
    parameters := Parameter.tokenize language header.params.trim
    code := Text.join ['\n'] (line :: below.take kept)
    lineStart := number
    lineEnd := number + kept
    language := language }

/-- The records of a list of lines, the first of which has the given number; `skip` counts the
lines of a body that are still to be passed over. -/
def scan (language : Language) : (number skip : Nat) → List Text → List FunctionRecord
  | _, _, [] => []
  | number, skip + 1, _ :: below => scan language (number + 1) skip below
  | number, 0, line :: below =>
    match Header.recognise? language line with
    | none => scan language (number + 1) 0 below
    | some header =>
      ofHeader language number header line below
        :: scan language (number + 1) (bodySpan language header line below).passed below

def extract (language : Language) (source : Text) : List FunctionRecord :=
  scan language 1 0 (source.split '\n')

def extractFile (file : Path) (source : Text) : List FunctionRecord :=
  extract (Language.classify file) source

end FunctionRecord

end SoloCall
