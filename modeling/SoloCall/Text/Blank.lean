import SoloCall.Text.Basic

namespace SoloCall

open Text

/-- The twenty-five characters with the property White_Space. -/
def isBlank (c : Char) : Bool :=
  let n := c.toNat
  (9 ≤ n && n ≤ 13) || n = 32 || n = 0x85 || n = 0xA0 || n = 0x1680
    || (0x2000 ≤ n && n ≤ 0x200A) || n = 0x2028 || n = 0x2029 || n = 0x202F || n = 0x205F
    || n = 0x3000

namespace Text

def skipBlanks (t : Text) : Text := t.dropWhile isBlank

def trimEnd (t : Text) : Text := t.dropEndWhile isBlank

def trim (t : Text) : Text := t.skipBlanks.trimEnd

def allBlank (t : Text) : Bool := t.all isBlank

def indent (t : Text) : Nat := (t.takeWhile isBlank).length

def blankPieces (t : Text) : List Text :=
  t.foldr (fun c pieces =>
    if isBlank c then [] :: pieces
    else match pieces with
      | [] => [[c]]
      | piece :: rest => (c :: piece) :: rest) [[]]

def words (t : Text) : List Text := t.blankPieces.filter fun piece => !piece.isEmpty

theorem skipBlanks_cons_of_blank {c : Char} (h : isBlank c = true) (t : Text) :
    skipBlanks (c :: t) = skipBlanks t := by
  simp [skipBlanks, h]

theorem skipBlanks_cons_of_not_blank {c : Char} (h : isBlank c = false) (t : Text) :
    skipBlanks (c :: t) = c :: t := by
  simp [skipBlanks, h]

end Text

end SoloCall
