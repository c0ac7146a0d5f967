import SoloCall.Shell.Arithmetic
import SoloCall.Shell.Utility.Desk

namespace SoloCall.Shell

namespace Condition

inductive Fault where
  | notANumber (t : Text)
  | unexpected (t : Text)
  | argumentExpected (op : Text)
  | unclosed
  deriving DecidableEq, Repr

def Fault.message : Fault → Text
  | notANumber t => "Illegal number: ".toList ++ t
  | unexpected t => (if t.isEmpty then [] else t ++ ": ".toList) ++ "unexpected operator".toList
  | argumentExpected op => op ++ ": argument expected".toList
  | unclosed => "closing paren expected".toList

inductive Token where
  | ending
  | operand
  | unary
  | binary
  | negation
  | conjunction
  | disjunction
  | opening
  | closing
  deriving DecidableEq, Repr

def unaryNames : List String := [
  "-r", "-w", "-x", "-e", "-f", "-d", "-c", "-b", "-p", "-u", "-g", "-k", "-s", "-t", "-z", "-n",
  "-h", "-O", "-G", "-L", "-S"]

def binaryNames : List String := [
  "=", "!=", "<", ">", "-eq", "-ne", "-gt", "-lt", "-le", "-ge", "-nt", "-ot", "-ef"]

def isBinary (t : Text) : Bool := binaryNames.contains (String.ofList t)

/-- Whether an argument that is named like an operator on what follows is an operand itself. -/
def isOperand : (following : List Text) → Bool
  | [] => true
  | [_] => false
  | next :: _ => isBinary next

def token : List Text → Token
  | [] => .ending
  | t :: rest =>
    let name := String.ofList t
    if isBinary t then .binary
    else if unaryNames.contains name then if isOperand rest then .operand else .unary
    else match name with
      | "!" => .negation
      | "-a" => .conjunction
      | "-o" => .disjunction
      | "(" => if rest.isEmpty then .operand else .opening
      | ")" => .closing
      | _ => .operand

def isRunnable : Entry → Bool
  | .directory => true
  | .file _ executable => executable

def number (t : Text) : Except Fault Int :=
  let body := Text.dropEndWhile Sum.isBlank (t.dropWhile Sum.isBlank)
  let negative := body.head? = some '-'
  let digits := if negative || body.head? = some '+' then body.tail else body
  let n : Int := if negative then -(ofDigits digits : Int) else ofDigits digits
  if digits.isEmpty || !digits.all isDigit || n < -(Nat.pow 2 63) || Nat.pow 2 63 ≤ n then
    .error (.notANumber t)
  else .ok n

def comparison? (op : Text) : Option (Int → Int → Bool) :=
  match String.ofList op with
  | "-eq" => some fun a b => a = b
  | "-ne" => some fun a b => a ≠ b
  | "-lt" => some fun a b => a < b
  | "-le" => some fun a b => a ≤ b
  | "-gt" => some fun a b => b < a
  | "-ge" => some fun a b => b ≤ a
  | _ => none

variable (files : FileSystem) (cwd : Location)

def located? (p : Path) : Option (Location × Entry) :=
  match files.locate cwd p with
  | .ok l => (files.get? l).map fun e => (l, e)
  | .error _ => none

def unary (op t : Text) : Except Fault Bool :=
  let found? := located? files cwd t
  match String.ofList op with
  | "-n" => .ok !t.isEmpty
  | "-z" => .ok t.isEmpty
  | "-t" => (number t).map fun _ => false
  | "-e" | "-r" | "-w" | "-O" | "-G" => .ok found?.isSome
  | "-f" => .ok (found?.any fun x => !x.2.isDirectory && !Location.devices.contains x.1)
  | "-c" => .ok (found?.any fun x => Location.devices.contains x.1)
  | "-d" => .ok (found?.any fun x => x.2.isDirectory)
  | "-x" => .ok (found?.any fun x => isRunnable x.2)
  | "-s" => .ok (found?.any fun x =>
      match x.2 with
      | .file contents _ => !contents.isEmpty
      | .directory => true)
  | _ => .ok false

/-- Times of change are not kept, so that no file is newer than another. -/
def binary (op a b : Text) : Except Fault Bool :=
  match String.ofList op with
  | "=" => .ok (a = b)
  | "!=" => .ok (a ≠ b)
  | "<" => .ok (Text.le a b && a ≠ b)
  | ">" => .ok (Text.le b a && a ≠ b)
  | "-ef" =>
    .ok ((located? files cwd a).any fun x => (located? files cwd b).any fun y => x.1 = y.1)
  | _ =>
    match comparison? op with
    | some holds => do
      let m ← number a
      return holds m (← number b)
    | none => .ok false

mutual

def primary : (fuel : Nat) → Token → List Text → Except Fault (Bool × List Text)
  | 0, _, ts => .error (.unexpected (ts.headD []))
  | fuel + 1, first, ts =>
    match first with
    | .ending => .ok (false, ts)
    | .opening =>
      let inner := ts.tail
      if token inner = .closing then .ok (false, inner)
      else do
        let (value, ts) ← disjunction fuel (token inner) inner
        let after := ts.tail
        if token after = .closing then .ok (value, after) else .error .unclosed
    | _ =>
      match first, ts with
      | .unary, op :: t :: rest => do return (← unary files cwd op t, t :: rest)
      | _, a :: op :: rest =>
        if isBinary op then
          match rest with
          | b :: more => do return (← binary files cwd op a b, b :: more)
          | [] => .error (.argumentExpected op)
        else .ok (!a.isEmpty, ts)
      | _, ts => .ok (!(ts.headD []).isEmpty, ts)

def negation : (fuel : Nat) → Token → List Text → Except Fault (Bool × List Text)
  | 0, _, ts => .error (.unexpected (ts.headD []))
  | fuel + 1, first, ts =>
    if first = .negation then do
      let next := token ts.tail
      let (value, ts) ← negation fuel next (if next = .ending then ts else ts.tail)
      return (!value, ts)
    else primary fuel first ts

def conjunction : (fuel : Nat) → Token → List Text → Except Fault (Bool × List Text)
  | 0, _, ts => .error (.unexpected (ts.headD []))
  | fuel + 1, first, ts => do
    let (a, ts) ← negation fuel first ts
    if token ts.tail = .conjunction then
      let (b, ts) ← conjunction fuel (token (ts.drop 2)) (ts.drop 2)
      return (a && b, ts)
    else return (a, ts)

def disjunction : (fuel : Nat) → Token → List Text → Except Fault (Bool × List Text)
  | 0, _, ts => .error (.unexpected (ts.headD []))
  | fuel + 1, first, ts => do
    let (a, ts) ← conjunction fuel first ts
    if token ts.tail = .disjunction then
      let (b, ts) ← disjunction fuel (token (ts.drop 2)) (ts.drop 2)
      return (a || b, ts)
    else return (a, ts)

end

def wholly (first : Token) (ts : List Text) : Except Fault Bool :=
  match disjunction files cwd (4 * ts.length + 8) first ts with
  | .ok (_, last :: _ :: _) => .error (.unexpected last)
  | .ok (value, _) => .ok value
  | .error e => .error e

/-- A condition without the exclamation mark or the parentheses that stand around all of three or
four arguments, and whether it is to fail. Two operands around an operator are nothing else. -/
def peel : (fuel : Nat) → (negated : Bool) → List Text → Bool × Token × List Text
  | 0, negated, ts => (negated, token ts, ts)
  | fuel + 1, negated, ts =>
    if ts.length = 3 && isBinary (ts.tail.headD []) then (negated, .operand, ts)
    else if ts.length = 3 || ts.length = 4 then
      if ts.head? = some ['('] && ts.getLast? = some [')'] then
        let inner := ts.tail.dropLast
        (negated, token inner, inner)
      else if ts.head? = some ['!'] then peel fuel true ts.tail
      else (negated, token ts, ts)
    else (negated, token ts, ts)

/-- Whether the condition that the arguments write holds; none at all does not. -/
def holds (ts : List Text) : Except Fault Bool :=
  if ts.isEmpty then .ok false
  else
    let (negated, first, ts) := peel 4 false ts
    (wholly files cwd first ts).map fun value => negated != value

end Condition

end SoloCall.Shell
