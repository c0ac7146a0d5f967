import SoloCall.Language
import SoloCall.Text.Decimal

namespace SoloCall

namespace Argument

def unsigned : Text → Text
  | '+' :: r => r
  | '-' :: r => r
  | r => r

def isExponent : Text → Bool
  | [] => true
  | e :: r => (e = 'e' || e = 'E') && !(unsigned r).isEmpty && (unsigned r).all isDigit

/-- Digits with at most one point among them, at least one digit, then perhaps an exponent. -/
def isMagnitude (t : Text) : Bool :=
  let whole := t.takeWhile isDigit
  match t.dropWhile isDigit with
  | '.' :: r =>
    (!whole.isEmpty || !(r.takeWhile isDigit).isEmpty) && isExponent (r.dropWhile isDigit)
  | rest => !whole.isEmpty && isExponent rest

def floatWords : List Text := ["inf".toList, "infinity".toList, "nan".toList]

def isFloat (t : Text) : Bool :=
  isMagnitude (unsigned t) || floatWords.contains (unsigned t).lower

/-- A floating-point number that starts with a digit or a point behind its sign, so no word; blanks
may stand around it. -/
def isNumeric (t : Text) : Bool :=
  (unsigned t.trim).head?.any (fun c => isDigit c || c = '.') && isFloat t.trim

def bareLiterals : List Text := [
  "null".toList, "None".toList, "nil".toList, "true".toList, "false".toList]

def isLiteral (t : Text) : Bool :=
  t.isEmpty || isNumeric t || t.head?.any (['"', '\'', '[', '\x7b'].contains ·)
    || bareLiterals.contains t

def format (t : Text) : Text := if isLiteral t then t else '"' :: t ++ ['"']

def formatAll (ts : List Text) : List Text := ts.map format

end Argument

end SoloCall
