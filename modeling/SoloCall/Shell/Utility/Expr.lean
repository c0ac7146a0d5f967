import SoloCall.Shell.Regex
import SoloCall.Shell.Utility.Streams

namespace SoloCall.Shell

namespace Expression

inductive Fault where
  | missingOperand
  | missingAfter (t : Text)
  | unexpected (t : Text)
  | unclosed (last : Text)
  | notANumber
  | divisionByZero
  | badPattern
  deriving DecidableEq, Repr

def inQuotes (t : Text) : Text := '\'' :: t ++ ['\'']

def Fault.message : Fault → Text
  | missingOperand => "missing operand".toList
  | missingAfter t => "syntax error: missing argument after ".toList ++ inQuotes t
  | unexpected t => "syntax error: unexpected argument ".toList ++ inQuotes t
  | unclosed last => "syntax error: expecting ')' after ".toList ++ inQuotes last
  | notANumber => "non-integer argument".toList
  | divisionByZero => "division by zero".toList
  | badPattern => "Unmatched ( or \\(".toList

def isNull (t : Text) : Bool :=
  let digits := if t.head? = some '-' then t.tail else t
  t.isEmpty || (!digits.isEmpty && digits.all (· = '0'))

def ofBool (b : Bool) : Text := if b then ['1'] else ['0']

def number (t : Text) : Except Fault Int :=
  match Utility.int? t with
  | some n => .ok n
  | none => .error .notANumber

/-- The part of a text that a pattern matches at its start: what the first group holds if the
pattern has one, else the length. -/
def matchStart (t pattern : Text) : Except Fault Text :=
  match Regex.parse? false pattern with
  | none => .error .badPattern
  | some r =>
    match Regex.longest? r ⟨[], t, []⟩ with
    | some p => .ok (if r.hasGroup then (p.groups.lookup 1).getD [] else
        decimal (t.length - p.rest.length))
    | none => .ok (if r.hasGroup then [] else ['0'])

def ranks : List (List String) :=
  [["|"], ["&"], ["<", "<=", "=", "==", "!=", ">=", ">"], ["+", "-"], ["*", "/", "%"], [":"]]

def compare (op : String) (order : Ordering) : Bool :=
  match op with
  | "<" => order = .lt
  | "<=" => order ≠ .gt
  | "=" | "==" => order = .eq
  | "!=" => order ≠ .eq
  | ">=" => order ≠ .lt
  | _ => order = .gt

def orderOf (a b : Text) : Ordering :=
  match Utility.int? a, Utility.int? b with
  | some m, some n => if m < n then .lt else if m = n then .eq else .gt
  | _, _ => if a = b then .eq else if bytesLe (Utf8.encode a) (Utf8.encode b) then .lt else .gt

def apply (op : String) (a b : Text) : Except Fault Text :=
  match op with
  | "|" => .ok (if !isNull a then a else if !isNull b then b else ['0'])
  | "&" => .ok (if isNull a || isNull b then ['0'] else a)
  | ":" => matchStart a b
  | "+" => do return signedDecimal ((← number a) + (← number b))
  | "-" => do return signedDecimal ((← number a) - (← number b))
  | "*" => do return signedDecimal ((← number a) * (← number b))
  | "/" => do
    let m ← number a
    let n ← number b
    if n = 0 then .error .divisionByZero else return signedDecimal (m.tdiv n)
  | "%" => do
    let m ← number a
    let n ← number b
    if n = 0 then .error .divisionByZero else return signedDecimal (m.tmod n)
  | op => .ok (ofBool (compare op (orderOf a b)))

def substring (t place length : Text) : Text :=
  match Utility.int? place, Utility.int? length with
  | some i, some n => if i ≤ 0 || n ≤ 0 then [] else (t.drop (i.toNat - 1)).take n.toNat
  | _, _ => []

def indexOf (t set : Text) : Nat :=
  match t.findIdx? set.contains with
  | some i => i + 1
  | none => 0

mutual

def operand : (fuel : Nat) → (last : Text) → List Text → Except Fault (Text × Text × List Text)
  | 0, last, _ => .error (.missingAfter last)
  | _ + 1, last, [] => .error (.missingAfter last)
  | fuel + 1, _, t :: rest =>
    match String.ofList t with
    | "(" => do
      let (value, last, rest) ← ranked fuel ranks t rest
      match rest with
      | [')'] :: rest => return (value, [')'], rest)
      | [] => .error (.unclosed last)
      | other :: _ => .error (.unexpected other)
    | ")" => .error (.unexpected t)
    | "+" =>
      match rest with
      | a :: rest => return (a, a, rest)
      | [] => .error (.missingAfter t)
    | "length" => do
      let (a, last, rest) ← operand fuel t rest
      return (decimal a.length, last, rest)
    | "index" => do
      let (a, last, rest) ← operand fuel t rest
      let (b, last, rest) ← operand fuel last rest
      return (decimal (indexOf a b), last, rest)
    | "match" => do
      let (a, last, rest) ← operand fuel t rest
      let (b, last, rest) ← operand fuel last rest
      return (← matchStart a b, last, rest)
    | "substr" => do
      let (a, last, rest) ← operand fuel t rest
      let (i, last, rest) ← operand fuel last rest
      let (n, last, rest) ← operand fuel last rest
      return (substring a i n, last, rest)
    | _ => return (t, t, rest)

/-- What operators of the given ranks and closer ones join. -/
def ranked : (fuel : Nat) → List (List String) → (last : Text) → List Text →
    Except Fault (Text × Text × List Text)
  | 0, _, last, _ => .error (.missingAfter last)
  | fuel + 1, [], last, ts => operand fuel last ts
  | fuel + 1, ops :: closer, last, ts => do
    let (a, last, ts) ← ranked fuel closer last ts
    further fuel ops closer a last ts

def further : (fuel : Nat) → (ops : List String) → List (List String) → Text → (last : Text) →
    List Text → Except Fault (Text × Text × List Text)
  | 0, _, _, _, last, _ => .error (.missingAfter last)
  | fuel + 1, ops, closer, a, last, ts =>
    match ts with
    | op :: rest =>
      if ops.contains (String.ofList op) then do
        let (b, last, rest) ← ranked fuel closer op rest
        further fuel ops closer (← apply (String.ofList op) a b) last rest
      else return (a, last, ts)
    | [] => return (a, last, ts)

end

def value (ts : List Text) : Except Fault Text :=
  if ts.isEmpty then .error .missingOperand
  else do
    let (value, _, rest) ← ranked (16 * (ts.length + 1)) ranks [] ts
    match rest with
    | [] => return value
    | t :: _ => .error (.unexpected t)

end Expression

namespace Utility

open Work

def expr (args : List Text) : Work Status := do
  match Expression.value (if args.head? = some ['-', '-'] then args.tail else args) with
  | .ok t =>
    sayLine t
    return if Expression.isNull t then 1 else 0
  | .error e =>
    complain e.message
    if e = .missingOperand then pointToHelp
    return 2

end Utility

end SoloCall.Shell
