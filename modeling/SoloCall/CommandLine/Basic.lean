import SoloCall.Language

namespace SoloCall

namespace CommandLine

inductive Command where
  | list (file : Path) (language? : Option Language) (json : Bool)
  | run (file : Path) (function : Text) (args : List Text) (language? : Option Language)
      (json : Bool)
  | classify (file : Path)
  deriving DecidableEq, Repr

inductive Wish where
  | command (c : Command)
  | version
  | help
  | misuse
  deriving DecidableEq, Repr

/-- What a command takes: so many operands, perhaps any number of further ones, and perhaps the
options that choose a language and JSON. A further operand may begin with a dash. -/
structure Shape where
  operands : Nat
  more : Bool
  options : Bool

/-- What has been read of a command's arguments. After a double dash, and once the further operands
have begun, everything is an operand. -/
structure Progress where
  verbose : Bool := false
  json : Bool := false
  language? : Option Language := none
  operands : List Text := []
  literal : Bool := false

inductive Step where
  | next (p : Progress)
  | value (p : Progress)
  | decided (w : Wish)

namespace Progress

def setVerbose (p : Progress) : Step :=
  if p.verbose then .decided .misuse else .next { p with verbose := true }

def setJson (p : Progress) : Step :=
  if p.json then .decided .misuse else .next { p with json := true }

def setLanguage (p : Progress) (t : Text) : Step :=
  match p.language?, Language.parse t with
  | none, .ok l => .next { p with language? := some l }
  | _, _ => .decided .misuse

def addOperand (s : Shape) (p : Progress) (t : Text) : Step :=
  if p.operands.isEmpty && t.isEmpty then .decided .misuse
  else if p.operands.length < s.operands || s.more then
    .next { p with operands := p.operands ++ [t] }
  else .decided .misuse

def takesMore (s : Shape) (p : Progress) : Bool := s.more && s.operands ≤ p.operands.length

def hasMore (s : Shape) (p : Progress) : Bool := s.more && s.operands < p.operands.length

def setShort (p : Progress) : Text → Step
  | [] => .next p
  | 'v' :: rest =>
    match p.setVerbose with
    | .next p => setShort p rest
    | step => step
  | 'h' :: _ => .decided .help
  | _ :: _ => .decided .misuse

def isShort (c : Char) : Bool := c = 'v' || c = 'h'

def setLong (s : Shape) (p : Progress) (t : Text) : Step :=
  let (name, value?) := match Text.cut? '=' t with
    | some (name, value) => (name, some value)
    | none => (t, none)
  match String.ofList name, value? with
  | "verbose", none => p.setVerbose
  | "help", none => .decided .help
  | "verbose", some _ => .decided .misuse
  | "help", some _ => .decided .misuse
  | known, value? =>
    if s.options && known = "json" then
      if value?.isSome then .decided .misuse else p.setJson
    else if s.options && known = "lang" then
      match value? with
      | some v => p.setLanguage v
      | none => .value p
    else if p.takesMore s then p.addOperand s ('-' :: '-' :: t)
    else .decided .misuse

def read (s : Shape) (p : Progress) (t : Text) : Step :=
  if p.literal || p.hasMore s then p.addOperand s t
  else match t with
    | ['-', '-'] => .next { p with literal := true }
    | '-' :: '-' :: r => p.setLong s r
    | '-' :: c :: r =>
      if p.takesMore s && !(c :: r).all isShort then p.addOperand s t
      else p.setShort (c :: r)
    | _ => p.addOperand s t

end Progress

/-- Reads arguments from a step on. Of a progress at the end, `finish` makes the command. The value
of the language option cannot begin with a dash, as no language does. -/
def readAll (s : Shape) (finish : Progress → Option Command) : Step → List Text → Wish
  | .decided w, _ => w
  | .value _, [] => .misuse
  | .value p, t :: rest => readAll s finish (p.setLanguage t) rest
  | .next p, t :: rest => readAll s finish (p.read s t) rest
  | .next p, [] =>
    match finish p with
    | some c => .command c
    | none => .misuse

def readList (args : List Text) : Wish :=
  readAll ⟨1, false, true⟩ (fun p =>
    match p.operands with
    | [file] => some (.list file p.language? p.json)
    | _ => none) (.next {}) args

def readRun (args : List Text) : Wish :=
  readAll ⟨2, true, true⟩ (fun p =>
    match p.operands with
    | file :: function :: more => some (.run file function more p.language? p.json)
    | _ => none) (.next {}) args

def readClassify (args : List Text) : Wish :=
  readAll ⟨1, false, false⟩ (fun p =>
    match p.operands with
    | [file] => some (.classify file)
    | _ => none) (.next {}) args

def readShort (verbose : Bool) : Text → Except Wish Bool
  | [] => .ok verbose
  | 'v' :: rest => if verbose then .error .misuse else readShort true rest
  | 'h' :: _ => .error .help
  | 'V' :: _ => .error .version
  | _ :: _ => .error .misuse

def helpTopics : List Text := ["list".toList, "run".toList, "classify".toList, "help".toList]

def read (verbose : Bool) : List Text → Wish
  | [] => .misuse
  | t :: rest =>
    match String.ofList t with
    | "list" => readList rest
    | "run" => readRun rest
    | "classify" => readClassify rest
    | "help" =>
      match rest with
      | [] => .help
      | [topic] => if helpTopics.contains topic then .help else .misuse
      | _ => .misuse
    | "--verbose" => if verbose then .misuse else read true rest
    | "--help" => .help
    | "--version" => .version
    | _ =>
      match t with
      | '-' :: '-' :: _ => .misuse
      | '-' :: c :: cs =>
        match readShort verbose (c :: cs) with
        | .ok verbose => read verbose rest
        | .error w => w
      | _ => .misuse

def wish (args : List Text) : Wish := read false args

end CommandLine

end SoloCall
