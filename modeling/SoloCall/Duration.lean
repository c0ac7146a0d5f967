import SoloCall.Text.Decimal
import SoloCall.Text.Basic

namespace SoloCall

abbrev Nanos := Nat

namespace Nanos

def perSecond : Nanos := 1000000000

def ofSeconds (n : Nat) : Nanos := n * perSecond

def ofMillis (n : Nat) : Nanos := n * 1000000

def pointText (whole rest places : Nat) : Text :=
  let digits := List.replicate (places - (decimal rest).length) '0' ++ decimal rest
  let digits := if rest = 0 then [] else Text.dropEndWhile (· = '0') digits
  if digits.isEmpty then decimal whole else decimal whole ++ '.' :: digits

/-- A length of time in the largest unit that gives it a whole part, exactly. -/
def text (n : Nanos) : Text :=
  if n ≥ perSecond then pointText (n / perSecond) (n % perSecond) 9 ++ ['s']
  else if n ≥ 1000000 then pointText (n / 1000000) (n % 1000000) 6 ++ ['m', 's']
  else if n ≥ 1000 then pointText (n / 1000) (n % 1000) 3 ++ ['µ', 's']
  else decimal n ++ ['n', 's']

end Nanos

end SoloCall
