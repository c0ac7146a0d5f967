import SoloCall.Config

namespace SoloCall.Shell

inductive Outlet where
  | output | diagnostics
  deriving DecidableEq, Repr

structure Desk where
  name : Text
  files : FileSystem
  cwd : Location
  environment : Environment
  input : Bytes
  inputIsFile : Bool := false
  written : List (Outlet × Bytes) := []

def Desk.shortName (d : Desk) : Text := (Path.cutName d.name).2

abbrev Work := StateM Desk

abbrev Status := Nat

namespace Work

def write (o : Outlet) (b : Bytes) : Work Unit :=
  modify fun d => { d with written := (o, b) :: d.written }

def say (b : Bytes) : Work Unit := write .output b

def sayText (t : Text) : Work Unit := say (Utf8.encode t)

def sayLine (t : Text) : Work Unit := sayText (t ++ ['\n'])

def note (t : Text) : Work Unit := write .diagnostics (Utf8.encode (t ++ ['\n']))

def complain (t : Text) : Work Unit := do
  note ((← get).name ++ ": ".toList ++ t)

def pointToHelp : Work Unit := do
  note ("Try '".toList ++ (← get).name ++ " --help' for more information.".toList)

def readInput : Work Bytes := modifyGet fun d => (d.input, { d with input := [] })

def inputPaths : List Path := ["/dev/stdin".toList, "/dev/fd/0".toList, "/proc/self/fd/0".toList]

/-- What a path names for reading; a dash is the input. Of what never ends, `enough` bytes are
read. -/
def readSome (enough : Nat) (p : Path) : Work (Except OsError Bytes) := do
  if p = ['-'] || inputPaths.contains p then return .ok (← readInput)
  if p = Location.nullDevice.path then return .ok []
  if p = Location.zeroDevice.path then return .ok (List.replicate enough 0)
  return (← get).files.read (← get).cwd p

def endless : Nat := 200000

def readOperand (p : Path) : Work (Except OsError Bytes) := readSome endless p

def onFiles (f : FileSystem → Location → Except OsError FileSystem) : Work (Option OsError) := do
  match f (← get).files (← get).cwd with
  | .ok fs =>
    modify fun d => { d with files := fs }
    return none
  | .error e => return some e

def each {α : Type} (xs : List α) (f : α → Work Status) : Work Status :=
  xs.foldlM (fun status x => return Nat.max status (← f x)) 0

end Work

/-- The lines of a byte sequence, without their ends; an end of line at the very end begins no
further line. -/
def byteLines (b : Bytes) : List Bytes :=
  let pieces := b.foldr (fun (c : UInt8) pieces =>
    if c = 10 then [] :: pieces
    else match pieces with
      | [] => [[c]]
      | piece :: rest => (c :: piece) :: rest) [[]]
  if pieces.getLast? = some [] then pieces.dropLast else pieces

def byteLinesKept (b : Bytes) : List Bytes :=
  let lines := (byteLines b).map fun l => l ++ [10]
  if b.getLast? = some 10 then lines
  else match lines.getLast? with
    | some last => lines.dropLast ++ [last.dropLast]
    | none => []

def bytesLe : Bytes → Bytes → Bool
  | [], _ => true
  | _ :: _, [] => false
  | a :: x, b :: y => if a = b then bytesLe x y else a < b

inductive OptionFault where
  | unknown (c : Char)
  | unknownWord (t : Text)
  | withoutValue (c : Char)

def OptionFault.message : OptionFault → Text
  | unknown c => "invalid option -- '".toList ++ [c, '\'']
  | unknownWord t => "unrecognized option '".toList ++ t ++ ['\'']
  | withoutValue c => "option requires an argument -- '".toList ++ [c, '\'']

structure Arguments where
  options : List (Char × Text) := []
  operands : List Text := []

namespace Arguments

def has (a : Arguments) (c : Char) : Bool := a.options.any fun o => o.1 = c

def value? (a : Arguments) (c : Char) : Option Text := (a.options.reverse.lookup c)

def values (a : Arguments) (c : Char) : List Text :=
  a.options.filterMap fun o => if o.1 = c then some o.2 else none

def cluster (flags valued : Text) : Text → Except OptionFault (List (Char × Text) × Option Char)
  | [] => .ok ([], none)
  | c :: r =>
    if flags.contains c then (cluster flags valued r).map fun p => ((c, []) :: p.1, p.2)
    else if valued.contains c then
      if r.isEmpty then .ok ([], some c) else .ok ([(c, r)], none)
    else .error (.unknown c)

/-- Options may stand between operands, up to a double dash; with `early`, only before them. A
number after a dash counts as the value of `numeric`, if that is given. -/
def parse (flags valued : Text) (numeric : Option Char) (early : Bool) (wanting : Option Char) :
    List Text → Except OptionFault Arguments
  | [] =>
    match wanting with
    | some c => .error (.withoutValue c)
    | none => .ok {}
  | t :: rest =>
    let add (o : Char × Text) (wanting : Option Char) : Except OptionFault Arguments :=
      (parse flags valued numeric early wanting rest).map fun a =>
        { a with options := o :: a.options }
    match wanting with
    | some c => add (c, t) none
    | none =>
      match t with
      | ['-', '-'] => .ok { operands := rest }
      | '-' :: '-' :: _ => .error (.unknownWord t)
      | '-' :: c :: r =>
        match numeric with
        | some n =>
          if isDigit c then add (n, c :: r) none
          else match cluster flags valued (c :: r) with
            | .error bad => .error bad
            | .ok (os, wanting) =>
              (parse flags valued numeric early wanting rest).map fun a =>
                { a with options := os ++ a.options }
        | none =>
          match cluster flags valued (c :: r) with
          | .error bad => .error bad
          | .ok (os, wanting) =>
            (parse flags valued numeric early wanting rest).map fun a =>
              { a with options := os ++ a.options }
      | _ =>
        if early then .ok { operands := t :: rest }
        else (parse flags valued numeric early none rest).map fun a =>
          { a with operands := t :: a.operands }

end Arguments

def withArguments (flags valued : String) (args : List Text) (bad : Status)
    (run : Arguments → Work Status) (numeric : Option Char := none)
    (hint : Work Unit := Work.pointToHelp) (early : Bool := false) : Work Status := do
  match Arguments.parse flags.toList valued.toList numeric early none args with
  | .ok a => run a
  | .error e =>
    Work.complain e.message
    hint
    return bad

end SoloCall.Shell
