import SoloCall.Json.Writer
import SoloCall.Record.Basic

namespace SoloCall

open Json

/-- A language by its name, or as the one field of an object that holds null. -/
def Language.ofTree? : Tree → Option Language
  | .string units => (Json.text? units).bind Language.ofName?
  | .object [(key, .null)] => (Json.text? key).bind Language.ofName?
  | _ => none

namespace Parameter

def toJson (p : Parameter) : Value :=
  .object ([("name".toList, .string p.name), ("type".toList, .string p.type)] ++
    match p.default? with
    | none => []
    | some value => [("defaultValue".toList, .string value)])

def ofTree? (tree : Tree) : Option Parameter := do
  let [some name, some type, default?] ←
    tree.fields? ["name".toList, "type".toList, "defaultValue".toList] | none
  return ⟨← name.text?, ← type.text?, ← Tree.optional? Tree.text? default?⟩

end Parameter

namespace FunctionRecord

def fieldNames : List Text := [
  "name".toList, "parameters".toList, "code".toList, "lineStart".toList, "lineEnd".toList,
  "language".toList]

def toJson (r : FunctionRecord) : Value :=
  .object [
    ("name".toList, .string r.name),
    ("parameters".toList, .array (r.parameters.map Parameter.toJson)),
    ("code".toList, .string r.code),
    ("lineStart".toList, .int r.lineStart),
    ("lineEnd".toList, .int r.lineEnd),
    ("language".toList, .string r.language.name)]

def ofTree? (tree : Tree) : Option FunctionRecord := do
  let [some name, some parameters, some code, some lineStart, some lineEnd, some language] ←
    tree.fields? fieldNames | none
  return {
    name := ← name.text?
    parameters := ← (← parameters.items?).mapM Parameter.ofTree?
    code := ← code.text?
    lineStart := ← lineStart.word?
    lineEnd := ← lineEnd.word?
    language := ← Language.ofTree? language }

def ofJson? (t : Text) : Option FunctionRecord := (Json.parse? t).bind ofTree?

def listOfJson? (t : Text) : Option (List FunctionRecord) := do
  (← (← Json.parse? t).items?).mapM ofTree?

end FunctionRecord

end SoloCall
