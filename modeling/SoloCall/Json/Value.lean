import SoloCall.Json.Tree
import SoloCall.Number.Shortest

namespace SoloCall.Json

inductive Value where
  | null
  | bool (b : Bool)
  | int (n : Int)
  | float (negative : Bool) (magnitude : Binary)
  | string (t : Text)
  | array (items : List Value)
  | object (fields : List (Text × Value))

def absorb (n : Nat) : Text → Nat × Nat
  | [] => (n, 0)
  | d :: rest =>
    let next := n * 10 + digitValue d
    if next ≤ maxWord then
      let (m, taken) := absorb next rest
      (m, taken + 1)
    else (n, 0)

namespace NumberText

def exponentValue (n : NumberText) : Int :=
  match n.exponent? with
  | none => 0
  | some (sign?, digits) => if sign? = some '-' then -(ofDigits digits : Int) else ofDigits digits

/-- The number read as binary64. Digits beyond the first sixty-four bits only move the point, and
those after the point are dropped. None if the number is too large. -/
def magnitude? (n : NumberText) : Option Binary :=
  let (significand, taken) := absorb 0 n.whole
  let (significand, places) := absorb significand (n.fraction?.getD [])
  Binary.ofParts? significand (n.exponentValue + (n.whole.length - taken : Nat) - places)

/-- A whole number keeps its value if sixty-four bits hold it; anything else, and a negative
zero, is read as binary64. -/
def value? (n : NumberText) : Option Value :=
  let whole := ofDigits n.whole
  if n.fraction?.isNone && n.exponent?.isNone && !n.negative && whole ≤ maxWord then
    some (.int whole)
  else if n.fraction?.isNone && n.exponent?.isNone && n.negative && 0 < whole
      && whole ≤ Nat.pow 2 63 then
    some (.int (-whole))
  else (magnitude? n).map (.float n.negative)

end NumberText

def insertField (key : Text) (v : Value) : List (Text × Value) → List (Text × Value)
  | [] => [(key, v)]
  | f :: rest =>
    if f.1 = key then (key, v) :: rest
    else if Text.le f.1 key then f :: insertField key v rest
    else (key, v) :: f :: rest

def sortFields (fields : List (Text × Value)) : List (Text × Value) :=
  fields.foldl (fun sorted f => insertField f.1 f.2 sorted) []

def Tree.value? : (depth : Nat) → Tree → Option Value
  | _, .null => some .null
  | _, .bool b => some (.bool b)
  | _, .number n => n.value?
  | _, .string units => (Json.text? units).map .string
  | depth + 1, .array items => (items.mapM (value? depth)).map .array
  | depth + 1, .object fields => do
    let fields ← fields.mapM fun f => do return (← Json.text? f.1, ← value? depth f.2)
    return .object (sortFields fields)
  | 0, .array _ => none
  | 0, .object _ => none

end SoloCall.Json
