import SoloCall.Json.Token

namespace SoloCall.Json

abbrev Key := List CodeUnit

inductive Tree where
  | null
  | bool (b : Bool)
  | number (n : NumberText)
  | string (units : List CodeUnit)
  | array (items : List Tree)
  | object (fields : List (Key × Tree))

/-- An open bracket and what was read inside it, newest first. In an object, `key` waits for its
value. -/
inductive Frame where
  | array (items : List Tree)
  | object (fields : List (Key × Tree)) (key : Key)

inductive State where
  | value (stack : List Frame)
  | firstItem (stack : List Frame)
  | firstKey (stack : List Frame)
  | key (fields : List (Key × Tree)) (stack : List Frame)
  | colon (fields : List (Key × Tree)) (key : Key) (stack : List Frame)
  | after (done : Tree) (stack : List Frame)

def begin? (stack : List Frame) : Token → Option State
  | .null => some (.after .null stack)
  | .true => some (.after (.bool .true) stack)
  | .false => some (.after (.bool .false) stack)
  | .number n => some (.after (.number n) stack)
  | .string units => some (.after (.string units) stack)
  | .arrayStart => some (.firstItem stack)
  | .objectStart => some (.firstKey stack)
  | _ => none

def step? : State → Token → Option State
  | .value stack, token => begin? stack token
  | .firstItem stack, .arrayEnd => some (.after (.array []) stack)
  | .firstItem stack, token => begin? (.array [] :: stack) token
  | .firstKey stack, .objectEnd => some (.after (.object []) stack)
  | .firstKey stack, .string key => some (.colon [] key stack)
  | .key fields stack, .string key => some (.colon fields key stack)
  | .colon fields key stack, .colon => some (.value (.object fields key :: stack))
  | .after done (.array items :: stack), .comma => some (.value (.array (done :: items) :: stack))
  | .after done (.array items :: stack), .arrayEnd =>
    some (.after (.array (done :: items).reverse) stack)
  | .after done (.object fields key :: stack), .comma => some (.key ((key, done) :: fields) stack)
  | .after done (.object fields key :: stack), .objectEnd =>
    some (.after (.object ((key, done) :: fields).reverse) stack)
  | _, _ => none

def run? (state : State) (tokens : List Token) : Option State := tokens.foldlM step? state

/-- The one value that a whole text writes. -/
def parse? (t : Text) : Option Tree := do
  match ← run? (.value []) (← lex? t) with
  | .after done [] => some done
  | _ => none

theorem run?_nil (s : State) : run? s [] = some s := rfl

theorem run?_cons (s : State) (token : Token) (rest : List Token) :
    run? s (token :: rest) = (step? s token).bind fun s => run? s rest := by
  simp [run?, List.foldlM_cons]

theorem run?_append (s : State) (x y : List Token) :
    run? s (x ++ y) = (run? s x).bind fun s => run? s y := by
  simp [run?, List.foldlM_append]

def text? : List CodeUnit → Option Text
  | [] => some []
  | .char c :: r => (text? r).map (c :: ·)
  | .half high :: .half low :: r =>
    if high < 0xDC00 && 0xDC00 ≤ low then
      (text? r).map (Char.ofNat (0x10000 + (high - 0xD800) * 0x400 + (low - 0xDC00)) :: ·)
    else none
  | .half _ :: _ => none

namespace Tree

def text? : Tree → Option Text
  | string units => Json.text? units
  | _ => none

/-- A whole number of at most sixty-four bits, written without sign, point and exponent. -/
def word? : Tree → Option Nat
  | number ⟨.false, whole, none, none⟩ =>
    if ofDigits whole ≤ maxWord then some (ofDigits whole) else none
  | _ => none

def items? : Tree → Option (List Tree)
  | array items => some items
  | _ => none

/-- The values of the named fields, in the order of the names. Other fields are passed over, and
a named field may not be repeated. A record may also be written as an array of its fields in
order, the last of them left out. -/
def fields? (names : List Text) : Tree → Option (List (Option Tree))
  | object fields => do
    let fields ← fields.mapM fun f => (Json.text? f.1).map fun key => (key, f.2)
    names.mapM fun name =>
      match fields.filter fun f => f.1 = name with
      | [] => some none
      | [f] => some (some f.2)
      | _ => none
  | array items =>
    if items.length ≤ names.length then
      some (items.map some ++ List.replicate (names.length - items.length) none)
    else none
  | _ => none

/-- A field that may be absent; a null counts as absent. -/
def optional? {α : Type} (read? : Tree → Option α) : Option Tree → Option (Option α)
  | none => some none
  | some .null => some none
  | some tree => (read? tree).map some

end Tree

end SoloCall.Json
