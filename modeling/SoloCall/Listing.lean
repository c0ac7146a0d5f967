import SoloCall.Outcome
import SoloCall.Record.Json

namespace SoloCall

namespace Listing

structure Style where
  opening : Text
  closing : Text

def sgr (code : String) : Text := '\x1b' :: '[' :: code.toList ++ ['m']

def dim : Style := ⟨sgr "2", sgr "0"⟩
def cyan : Style := ⟨sgr "36", sgr "39"⟩
def green : Style := ⟨sgr "32", sgr "39"⟩
def red : Style := ⟨sgr "31", sgr "39"⟩
def bold : Style := ⟨sgr "1", sgr "0"⟩

def Style.paint (s : Style) (t : Text) : Text := s.opening ++ t ++ s.closing

def padLeft (width : Nat) (t : Text) : Text := List.replicate (width - t.length) ' ' ++ t

def lineRange (r : FunctionRecord) : Text := decimal r.lineStart ++ '-' :: decimal r.lineEnd

def recordLine (colour : Bool) (r : FunctionRecord) : Text :=
  let range := padLeft 9 (lineRange r)
  let signature := r.signature
  if colour then dim.paint range ++ [' ', ' '] ++ cyan.paint signature ++ ['\n']
  else range ++ [' ', ' '] ++ signature ++ ['\n']

def records (colour : Bool) (rs : List FunctionRecord) : Text := rs.flatMap (recordLine colour)

def outcome (colour : Bool) : Outcome → Text
  | .success result => (if colour then green.paint result else result) ++ ['\n']
  | .failure error =>
    let label := "error:".toList
    (if colour then bold.paint (red.paint label) else label) ++ ' ' :: error ++ ['\n']

def recordsJson (rs : List FunctionRecord) : Text :=
  (Json.Value.array (rs.map FunctionRecord.toJson)).pretty ++ ['\n']

/-- One line, in the shape in which drivers report. -/
def outcomeJson (o : Outcome) : Text := o.toJson.compact ++ ['\n']

end Listing

end SoloCall
