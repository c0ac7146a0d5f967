namespace SoloCall

def roundDiv (num den : Nat) : Nat :=
  let q := num / den
  let r := num % den
  if 2 * r > den || (2 * r = den && q % 2 = 1) then q + 1 else q

/-- A magnitude `mantissa * 2 ^ exponent`. -/
structure Binary where
  mantissa : Nat
  exponent : Int
  deriving DecidableEq, Repr

namespace Binary

def minExponent : Int := -1074
def maxExponent : Int := 971

def mantissaBound : Nat := Nat.pow 2 53

def zero : Binary := ⟨0, minExponent⟩

def shift (num den : Nat) (e : Int) : Nat × Nat :=
  if e ≥ 0 then (num, den * Nat.pow 2 e.toNat) else (num * Nat.pow 2 (-e).toNat, den)

def ofRatio? (num den : Nat) : Option Binary :=
  if num = 0 then some zero
  else
    let guess : Int := (num.log2 : Int) - den.log2 - 53
    let wide := shift num den guess
    let e := if wide.1 ≥ mantissaBound * wide.2 then guess + 1 else guess
    let e := max e minExponent
    let scaled := shift num den e
    let m := roundDiv scaled.1 scaled.2
    let (m, e) := if m = mantissaBound then (m / 2, e + 1) else (m, e)
    if e > maxExponent then none else some ⟨m, e⟩

def ratio (x : Binary) : Nat × Nat := shift x.mantissa 1 (-x.exponent)

def mul? (x y : Binary) : Option Binary :=
  ofRatio? (x.ratio.1 * y.ratio.1) (x.ratio.2 * y.ratio.2)

def div? (x y : Binary) : Option Binary :=
  ofRatio? (x.ratio.1 * y.ratio.2) (x.ratio.2 * y.ratio.1)

def powerOfTen? (n : Nat) : Option Binary := ofRatio? (Nat.pow 10 n) 1

/-- `significand * 10 ^ exponent`, found by at most three multiplications or divisions by powers
of ten up to `10 ^ 308`, each rounded. Three divisions by the greatest leave nothing of a
significand of sixty-four bits. -/
def ofParts? (significand : Nat) (exponent : Int) : Option Binary := do
  let x ← ofRatio? significand 1
  if x.mantissa = 0 then return zero
  if exponent > 308 then none
  else if exponent ≥ 0 then mul? x (← powerOfTen? exponent.toNat)
  else
    let n := (-exponent).toNat
    let great ← powerOfTen? 308
    if n ≤ 308 then div? x (← powerOfTen? n)
    else if n ≤ 616 then div? (← div? x great) (← powerOfTen? (n - 308))
    else div? (← div? (← div? x great) great) great

end Binary

end SoloCall
