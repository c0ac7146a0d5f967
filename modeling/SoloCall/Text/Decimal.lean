import SoloCall.Text.Basic

namespace SoloCall

def decimal (n : Nat) : Text := Nat.toDigits 10 n

def signedDecimal (n : Int) : Text := if n < 0 then '-' :: decimal n.natAbs else decimal n.natAbs

def isDigit (c : Char) : Bool := '0' ≤ c && c ≤ '9'

def digitValue (c : Char) : Nat := c.toNat - 48

def ofDigits (t : Text) : Nat := t.foldl (fun n c => n * 10 + digitValue c) 0

def maxWord : Nat := Nat.pow 2 64 - 1

/-- A number of at most sixty-four bits: an optional plus sign, then digits and nothing else. -/
def parseWord? (t : Text) : Option Nat :=
  let digits := match t with
    | '+' :: r => r
    | _ => t
  if !digits.isEmpty && digits.all isDigit && ofDigits digits ≤ maxWord then
    some (ofDigits digits)
  else none

end SoloCall
