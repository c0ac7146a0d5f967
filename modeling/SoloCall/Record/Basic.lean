import SoloCall.Parameter

namespace SoloCall

structure FunctionRecord where
  name : Text
  parameters : List Parameter
  code : Text
  lineStart : Nat
  lineEnd : Nat
  language : Language
  deriving DecidableEq, Repr

namespace FunctionRecord

def find? (records : List FunctionRecord) (name : Text) : Option FunctionRecord :=
  records.find? fun r => r.name = name

def signature (r : FunctionRecord) : Text :=
  r.name ++ '(' :: Text.join [',', ' '] (r.parameters.map Parameter.name) ++ [')']

end FunctionRecord

end SoloCall
