import SoloCall.Number.Shortest
import SoloCall.Shell.Arithmetic

namespace SoloCall.Shell

structure Real where
  negative : Bool
  magnitude? : Option Binary

namespace Real

/-- An exponent of this size leaves nothing of a number that has no more digits than `digits`, or
makes it too large. -/
def exponentBound (digits : Nat) : Int := 400 + digits

def ofDecimal? (digits : Text) (exponent : Int) : Option Binary :=
  let n := ofDigits digits
  let bound := exponentBound digits.length
  if n = 0 || exponent < -bound then some .zero
  else if exponent > bound then none
  else if exponent ≥ 0 then Binary.ofRatio? (n * Nat.pow 10 exponent.toNat) 1
  else Binary.ofRatio? n (Nat.pow 10 (-exponent).toNat)

def exponentAt (t : Text) : Int × Text :=
  match t with
  | e :: r =>
    if e = 'e' || e = 'E' then
      let negative := r.head? = some '-'
      let body := if negative || r.head? = some '+' then r.tail else r
      let digits := body.takeWhile isDigit
      if digits.isEmpty then (0, t)
      else (if negative then -(ofDigits digits : Int) else ofDigits digits, body.drop digits.length)
    else (0, t)
  | [] => (0, t)

def readFrom (t : Text) : Real × Text :=
  let body := t.dropWhile Sum.isBlank
  let negative := body.head? = some '-'
  let body := if negative || body.head? = some '+' then body.tail else body
  let whole := body.takeWhile isDigit
  let rest := body.drop whole.length
  let (places, rest) := match rest with
    | '.' :: r => (r.takeWhile isDigit, r.dropWhile isDigit)
    | r => ([], r)
  if whole.isEmpty && places.isEmpty then (⟨false, some .zero⟩, t)
  else
    let (exponent, rest) := exponentAt rest
    (⟨negative, ofDecimal? (whole ++ places) (exponent - places.length)⟩, rest)

def pointed (places : Nat) (digits : Text) : Text :=
  let digits := Binary.zeros (places + 1 - digits.length) ++ digits
  let whole := digits.take (digits.length - places)
  if places = 0 then whole else whole ++ '.' :: digits.drop whole.length

def fixed (x : Binary) (places : Nat) : Text :=
  let r := x.ratio
  pointed places (decimal (roundDiv (r.1 * Nat.pow 10 places) r.2))

def significant (x : Binary) (places : Nat) : Text × Int :=
  if x.mantissa = 0 then (Binary.zeros (places + 1), 0)
  else
    let exponent := x.magnitude - 1
    let r := x.ratio
    let scaled := Binary.shiftTen r.1 r.2 (exponent - places)
    let digits := decimal (roundDiv scaled.1 scaled.2)
    if digits.length > places + 1 then (digits.dropLast, exponent + 1) else (digits, exponent)

def exponentText (e : Int) : Text :=
  let digits := decimal e.natAbs
  (if e < 0 then '-' else '+') :: (Binary.zeros (2 - digits.length) ++ digits)

def scientific (x : Binary) (places : Nat) : Text :=
  let (digits, exponent) := significant x places
  pointed places digits ++ 'e' :: exponentText exponent

def withoutZeros (t : Text) : Text :=
  if t.contains '.' then Text.dropEndWhile (· = '.') (Text.dropEndWhile (· = '0') t) else t

/-- A magnitude with so many digits: positionally unless it is very large or small. Zeros at the end
are left out unless `keepZeros`. -/
def general (x : Binary) (digits : Nat) (keepZeros : Bool) : Text :=
  let digits := max digits 1
  let exponent := (significant x (digits - 1)).2
  let trim (t : Text) : Text := if keepZeros then t else withoutZeros t
  if -4 ≤ exponent && exponent < digits then
    trim (fixed x ((digits : Int) - 1 - exponent).toNat)
  else
    let t := scientific x (digits - 1)
    trim (t.takeWhile (· ≠ 'e')) ++ t.dropWhile (· ≠ 'e')

def magnitudeText (r : Real) (kind : Char) (precision? : Option Nat) (keepZeros : Bool) : Text :=
  let precision := precision?.getD 6
  let t := match r.magnitude? with
    | none => "inf".toList
    | some x =>
      if kind = 'f' || kind = 'F' then fixed x precision
      else if kind = 'e' || kind = 'E' then scientific x precision
      else general x precision keepZeros
  if kind = 'E' || kind = 'F' || kind = 'G' then t.map Char.toUpper else t

end Real

end SoloCall.Shell
