import SoloCall.Json.Value

namespace SoloCall.Json

def hexDigit (n : Nat) : Char := Nat.digitChar (n % 16)

def escape (c : Char) : Text :=
  if c = '"' then ['\\', '"']
  else if c = '\\' then ['\\', '\\']
  else if c = '\x08' then ['\\', 'b']
  else if c = '\x0c' then ['\\', 'f']
  else if c = '\n' then ['\\', 'n']
  else if c = '\r' then ['\\', 'r']
  else if c = '\t' then ['\\', 't']
  else if c.toNat < 0x20 then ['\\', 'u', '0', '0', hexDigit (c.toNat / 16), hexDigit c.toNat]
  else [c]

def quote (t : Text) : Text := '"' :: t.flatMap escape ++ ['"']

inductive Piece where
  | objectStart | objectEnd | arrayStart | arrayEnd | comma | colon
  | atom (text : Text)

def Piece.text : Piece → Text
  | objectStart => ['\x7b']
  | objectEnd => ['\x7d']
  | arrayStart => ['[']
  | arrayEnd => [']']
  | comma => [',']
  | colon => [':']
  | atom t => t

def floatText (negative : Bool) (x : Binary) : Text :=
  if negative then '-' :: x.text else x.text

namespace Value

mutual

def pieces : Value → List Piece
  | null => [.atom "null".toList]
  | bool .true => [.atom "true".toList]
  | bool .false => [.atom "false".toList]
  | int n => [.atom (signedDecimal n)]
  | float negative x => [.atom (floatText negative x)]
  | string t => [.atom (quote t)]
  | array items => .arrayStart :: itemPieces items ++ [.arrayEnd]
  | object fields => .objectStart :: fieldPieces fields ++ [.objectEnd]

def itemPieces : List Value → List Piece
  | [] => []
  | [v] => pieces v
  | v :: next :: rest => pieces v ++ .comma :: itemPieces (next :: rest)

def fieldPieces : List (Text × Value) → List Piece
  | [] => []
  | [(key, v)] => .atom (quote key) :: .colon :: pieces v
  | (key, v) :: next :: rest =>
    .atom (quote key) :: .colon :: pieces v ++ .comma :: fieldPieces (next :: rest)

end

def compact (v : Value) : Text := v.pieces.flatMap Piece.text

end Value

def lineBreak (depth : Nat) : Text := '\n' :: List.replicate (2 * depth) ' '

/-- Lays pieces out with every item and field on a line of its own, two spaces deeper than its
bracket. Empty brackets stay closed up. -/
def layOut : (depth : Nat) → List Piece → Text
  | _, [] => []
  | depth, .arrayStart :: .arrayEnd :: rest => '[' :: ']' :: layOut depth rest
  | depth, .objectStart :: .objectEnd :: rest => '\x7b' :: '\x7d' :: layOut depth rest
  | depth, .arrayStart :: rest => '[' :: lineBreak (depth + 1) ++ layOut (depth + 1) rest
  | depth, .objectStart :: rest => '\x7b' :: lineBreak (depth + 1) ++ layOut (depth + 1) rest
  | depth, .arrayEnd :: rest => lineBreak (depth - 1) ++ ']' :: layOut (depth - 1) rest
  | depth, .objectEnd :: rest => lineBreak (depth - 1) ++ '\x7d' :: layOut (depth - 1) rest
  | depth, .comma :: rest => ',' :: lineBreak depth ++ layOut depth rest
  | depth, .colon :: rest => ':' :: ' ' :: layOut depth rest
  | depth, .atom t :: rest => t ++ layOut depth rest

def Value.pretty (v : Value) : Text := layOut 0 v.pieces

end SoloCall.Json
