import SoloCall.Number.Binary
import SoloCall.Text.Decimal

namespace SoloCall

namespace Binary

/-- The quotients that read back as a number, in quarters of its last binary place. The ends
belong to the interval if the mantissa is even. Below a power of two the spacing is half as
wide. -/
structure Neighbourhood where
  low : Nat
  value : Nat
  high : Nat
  closed : Bool

def neighbourhood (x : Binary) : Neighbourhood where
  low := 4 * x.mantissa -
    (if 2 * x.mantissa = mantissaBound && x.exponent > minExponent then 1 else 2)
  value := 4 * x.mantissa
  high := 4 * x.mantissa + 2
  closed := x.mantissa % 2 = 0

def shiftTen (num den : Nat) (e : Int) : Nat × Nat :=
  if e ≥ 0 then (num, den * Nat.pow 10 e.toNat) else (num * Nat.pow 10 (-e).toNat, den)

def onGrid? (x : Binary) (e : Int) : Option Nat :=
  let nb := x.neighbourhood
  let quarter := shift 1 1 (-(x.exponent - 2))
  let unit := shiftTen quarter.1 quarter.2 e
  let inside (d : Nat) : Bool :=
    if nb.closed then nb.low * unit.1 ≤ d * unit.2 && d * unit.2 ≤ nb.high * unit.1
    else nb.low * unit.1 < d * unit.2 && d * unit.2 < nb.high * unit.1
  let below := nb.value * unit.1 / unit.2
  let nearest := roundDiv (nb.value * unit.1) unit.2
  let other := if nearest = below then below + 1 else below
  if inside nearest then some nearest else if inside other then some other else none

def magnitude (x : Binary) : Int :=
  let r := x.ratio
  if r.1 ≥ r.2 then ((decimal (r.1 / r.2)).length : Int)
  else 1 - ((decimal ((r.2 - 1) / r.1)).length : Int)

structure Digits where
  digits : Text
  point : Int

/-- The first grid, from the coarsest on, that has a multiple reading back as the number. Seventeen
digits always suffice. -/
def shortest (x : Binary) : Digits :=
  let mag := x.magnitude
  let found := (List.range 18).findSome? fun n : Nat =>
    (x.onGrid? (mag - n)).bind fun d => if d = 0 then none else some (d, mag - n)
  match found with
  | none => ⟨['0'], 1⟩
  | some (d, e) =>
    let digits := decimal d
    ⟨digits.dropEndWhile (· = '0'), digits.length + e⟩

def zeros (n : Nat) : Text := List.replicate n '0'

def Digits.text (d : Digits) : Text :=
  let n : Int := d.digits.length
  if -5 < d.point && d.point ≤ 0 then
    '0' :: '.' :: zeros (-d.point).toNat ++ d.digits
  else if 0 < d.point && d.point ≤ 16 then
    if n ≤ d.point then d.digits ++ zeros (d.point - n).toNat ++ ['.', '0']
    else d.digits.take d.point.toNat ++ '.' :: d.digits.drop d.point.toNat
  else
    let exponent := d.point - 1
    let sign := if exponent < 0 then '-' else '+'
    let head := d.digits.take 1
    let tail := d.digits.drop 1
    (if tail.isEmpty then head else head ++ '.' :: tail) ++ 'e' :: sign :: decimal exponent.natAbs

def text (x : Binary) : Text :=
  if x.mantissa = 0 then ['0', '.', '0'] else x.shortest.text

end Binary

end SoloCall
