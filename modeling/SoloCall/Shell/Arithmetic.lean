import SoloCall.Shell.Grammar

namespace SoloCall.Shell

inductive Sum where
  | number (n : Int)
  | name (t : Text)
  | unary (op : Char) (a : Sum)
  | binary (op : Text) (a b : Sum)
  | choose (condition yes no : Sum)
  | assign (name : Text) (op : Text) (a : Sum)

inductive ArithmeticFault where
  | notANumber (t : Text)
  | divisionByZero
  deriving DecidableEq, Repr

namespace Sum

def isBlank (c : Char) : Bool := c = ' ' || ('\t' ≤ c && c ≤ '\r')

def skipBlanks (t : Text) : Text := t.dropWhile fun c => c = ' ' || c = '\t' || c = '\n'

def operators : List (Text × Nat) := [
  ("||".toList, 1), ("&&".toList, 2), ("==".toList, 6), ("!=".toList, 6), ("<=".toList, 7),
  (">=".toList, 7), ("<<".toList, 8), (">>".toList, 8), ("|".toList, 3), ("^".toList, 4),
  ("&".toList, 5), ("<".toList, 7), (">".toList, 7), ("+".toList, 9), ("-".toList, 9),
  ("*".toList, 10), ("/".toList, 10), ("%".toList, 10)]

def assignable : List Text :=
  [['+'], ['-'], ['*'], ['/'], ['%'], ['<', '<'], ['>', '>'], ['&'], ['^'], ['|']]

def assignment? (t : Text) : Option (Text × Text) :=
  match t with
  | '=' :: '=' :: _ => none
  | '=' :: r => some ([], r)
  | _ => assignable.findSome? fun op => (Text.after? (op ++ ['=']) t).map fun r => (op, r)

def operator? (t : Text) : Option (Text × Nat × Text) :=
  if (assignment? t).isSome then none
  else operators.findSome? fun o => (Text.after? o.1 t).map fun r => (o.1, o.2, r)

def hexDigit? (c : Char) : Option Nat :=
  if isDigit c then some (c.toNat - 48)
  else if 'a' ≤ c && c ≤ 'f' then some (c.toNat - 87)
  else if 'A' ≤ c && c ≤ 'F' then some (c.toNat - 55)
  else none

def inBase (base : Nat) (digits : Text) : Nat :=
  digits.foldl (fun n c => n * base + (hexDigit? c).getD 0) 0

inductive Missing where
  | primary | parenthesis | colon | ending
  deriving DecidableEq, Repr

def Missing.text : Missing → Text
  | primary => "primary".toList
  | parenthesis => "')'".toList
  | colon => "':'".toList
  | ending => "EOF".toList

/-- The number at the start of a text, in the base that its beginning tells: sixteen, eight or ten;
and its length. -/
def constantAt (t : Text) : Nat × Nat :=
  let hex (r : Text) : Nat × Nat :=
    let digits := r.takeWhile fun c => (hexDigit? c).isSome
    if digits.isEmpty then (0, 1) else (inBase 16 digits, digits.length + 2)
  match t with
  | '0' :: 'x' :: r => hex r
  | '0' :: 'X' :: r => hex r
  | '0' :: r =>
    let digits := r.takeWhile fun c => '0' ≤ c && c ≤ '7'
    (inBase 8 digits, digits.length + 1)
  | _ =>
    let digits := t.takeWhile isDigit
    (ofDigits digits, digits.length)

mutual

def primary : (fuel : Nat) → Text → Except Missing (Sum × Text)
  | 0, _ => .error .primary
  | fuel + 1, t =>
    match skipBlanks t with
    | [] => .error .primary
    | c :: r =>
      if c = '(' then do
        let (a, rest) ← whole fuel r
        match skipBlanks rest with
        | ')' :: rest => return (a, rest)
        | _ => .error .parenthesis
      else if c = '-' || c = '+' || c = '!' || c = '~' then do
        let (a, rest) ← primary fuel r
        return (.unary c a, rest)
      else if isDigit c then
        let (n, length) := constantAt (c :: r)
        .ok (.number (Nat.min n (Nat.pow 2 63 - 1)), (c :: r).drop length)
      else if isNameStart c then
        let name := (c :: r).takeWhile isNameChar
        let rest := (c :: r).drop name.length
        .ok (.name name, rest)
      else .error .primary

def climb : (fuel rank : Nat) → Sum → Text → Except Missing (Sum × Text)
  | 0, _, _, _ => .error .primary
  | fuel + 1, rank, left, t =>
    match operator? (skipBlanks t) with
    | none => .ok (left, t)
    | some (op, r, rest) =>
      if r < rank then .ok (left, t)
      else do
        let (right, rest) ← primary fuel rest
        let (right, rest) ← climb fuel (r + 1) right rest
        climb fuel rank (.binary op left right) rest

/-- A choice, or what stands on its own. Assignments are found only where `whole` is read. -/
def choice : (fuel : Nat) → Text → Except Missing (Sum × Text)
  | 0, _ => .error .primary
  | fuel + 1, t => do
    let (left, rest) ← primary fuel t
    let (left, rest) ← climb fuel 0 left rest
    match skipBlanks rest with
    | '?' :: rest => do
      let (yes, rest) ← whole fuel rest
      match skipBlanks rest with
      | ':' :: rest => do
        let (no, rest) ← choice fuel rest
        return (.choose left yes no, rest)
      | _ => .error .colon
    | _ => return (left, rest)

def whole : (fuel : Nat) → Text → Except Missing (Sum × Text)
  | 0, _ => .error .primary
  | fuel + 1, t =>
    let t := skipBlanks t
    let name := t.takeWhile isNameChar
    match if isName name then assignment? (skipBlanks (t.drop name.length)) else none with
    | some (op, rest) => do
      let (a, rest) ← whole fuel rest
      return (.assign name op a, rest)
    | none => choice fuel t

end

def parse (t : Text) : Except Missing Sum :=
  if (skipBlanks t).isEmpty then .ok (.number 0)
  else do
    let (a, rest) ← whole (8 * (t.length + 1)) t
    if (skipBlanks rest).isEmpty then return a else .error .ending

def wrap (n : Int) : Int := n.bmod (Nat.pow 2 64)

def ofBool (b : Bool) : Int := if b then 1 else 0

def bits (f : Nat → Nat → Nat) (a b : Int) : Int :=
  wrap (f (a % Nat.pow 2 64).toNat (b % Nat.pow 2 64).toNat)

def applyUnary (op : Char) (a : Int) : Int :=
  if op = '-' then wrap (-a)
  else if op = '!' then ofBool (a = 0)
  else if op = '~' then -a - 1
  else a

def applyBinary (op : Text) (a b : Int) : Except ArithmeticFault Int :=
  match String.ofList op with
  | "+" => .ok (wrap (a + b))
  | "-" => .ok (wrap (a - b))
  | "*" => .ok (wrap (a * b))
  | "/" => if b = 0 then .error .divisionByZero else .ok (wrap (a.tdiv b))
  | "%" => if b = 0 then .error .divisionByZero else .ok (wrap (a.tmod b))
  | "<<" => .ok (wrap (a * Nat.pow 2 (b % 64).toNat))
  | ">>" => .ok (a.fdiv (Nat.pow 2 (b % 64).toNat))
  | "<" => .ok (ofBool (a < b))
  | ">" => .ok (ofBool (b < a))
  | "<=" => .ok (ofBool (a ≤ b))
  | ">=" => .ok (ofBool (b ≤ a))
  | "==" => .ok (ofBool (a = b))
  | "!=" => .ok (ofBool (a ≠ b))
  | "&" => .ok (bits Nat.land a b)
  | "|" => .ok (bits Nat.lor a b)
  | "^" => .ok (bits Nat.xor a b)
  | _ => .ok 0

/-- The number at the start of a text, behind blanks and a sign, and what follows it; nothing is
taken if there is none. -/
def numberAt (t : Text) : Int × Text :=
  let body := t.dropWhile isBlank
  let negative := body.head? = some '-'
  let digits := if negative || body.head? = some '+' then body.tail else body
  let (n, length) := constantAt digits
  if length = 0 then (0, t) else (if negative then -(n : Int) else n, digits.drop length)

def ofValue (t : Text) : Except ArithmeticFault Int :=
  let (n, rest) := numberAt t
  if rest.all isBlank && -(Nat.pow 2 63 : Int) ≤ n && n < Nat.pow 2 63 then .ok n
  else .error (.notANumber t)

/-- The value of an expression, and the variables with what it has assigned. -/
def eval (vars : List (Text × Text)) : Sum → Except ArithmeticFault (Int × List (Text × Text))
  | number n => .ok (wrap n, vars)
  | name t => do return (← ofValue ((vars.lookup t).getD []), vars)
  | unary op a => do
    let (n, vars) ← eval vars a
    return (applyUnary op n, vars)
  | binary op a b => do
    let (m, vars) ← eval vars a
    if op = "&&".toList then
      if m = 0 then return (0, vars)
      let (n, vars) ← eval vars b
      return (ofBool (n ≠ 0), vars)
    else if op = "||".toList then
      if m ≠ 0 then return (1, vars)
      let (n, vars) ← eval vars b
      return (ofBool (n ≠ 0), vars)
    else
      let (n, vars) ← eval vars b
      return (← applyBinary op m n, vars)
  | choose c a b => do
    let (n, vars) ← eval vars c
    if n ≠ 0 then eval vars a else eval vars b
  | assign x op a => do
    let (n, vars) ← eval vars a
    let n ← if op.isEmpty then pure n
      else applyBinary op (← ofValue ((vars.lookup x).getD [])) n
    return (n, (x, signedDecimal n) :: vars)

end Sum

end SoloCall.Shell
