import SoloCall.Json.Writer
import SoloCall.Text.Blank

namespace SoloCall

inductive Outcome where
  | success (result : Text)
  | failure (error : Text)
  deriving DecidableEq, Repr

namespace Outcome

open Json

def isSuccess : Outcome → Bool
  | success _ => true
  | failure _ => false

def text : Outcome → Text
  | success t => t
  | failure t => t

def toJson : Outcome → Value
  | success result => .object [("success".toList, .bool true), ("result".toList, .string result)]
  | failure error => .object [("success".toList, .bool false), ("error".toList, .string error)]

def unknownError : Text := "Unknown error".toList

def unreadable : Text := "Failed to parse output".toList

def valueText? : Value → Option Text
  | .null => none
  | .string t => some t
  | v => some v.compact

/-- A report is itself one level of at most 127, so its values may be nested 126 deep. -/
def reportDepth : Nat := 126

/-- The report a tree holds. Both values have to be readable, also the one that does not
count. -/
def ofTree? (tree : Tree) : Option Outcome := do
  let [some (.bool succeeded), result?, error?] ←
    tree.fields? ["success".toList, "result".toList, "error".toList] | none
  let result? ← Tree.optional? (Tree.value? reportDepth) result?
  let error? ← Tree.optional? (Tree.value? reportDepth) error?
  return if succeeded then .success ((result?.bind valueText?).getD [])
    else .failure ((error?.bind valueText?).getD unknownError)

def ofLine? (line : Text) : Option Outcome :=
  if Text.startsWith ['\x7b'] line.trim then (Json.parse? line.trim).bind ofTree? else none

/-- The outcome told by a standard output: the last report in it, and a failure with the whole
output where there is none. -/
def ofOutput (output : Text) : Outcome :=
  match (output.split '\n').reverse.findSome? ofLine? with
  | some outcome => outcome
  | none => if output.trim.isEmpty then .failure unreadable else .failure output.trim

end Outcome

end SoloCall
