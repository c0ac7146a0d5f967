import SoloCall.Text.Basic

namespace SoloCall.Shell

inductive PatternItem where
  | exactly (c : Char)
  | anyChar
  | anyText
  | oneOf (negated : Bool) (ranges : List (Char × Char))
  deriving DecidableEq, Repr

abbrev Pattern := List PatternItem

/-- A character with a mark that says whether it may have a special meaning. -/
abbrev Marked := List (Char × Bool)

namespace Pattern

def inRanges (ranges : List (Char × Char)) (c : Char) : Bool :=
  ranges.any fun r => r.1 ≤ c && c ≤ r.2

def itemAccepts : PatternItem → Char → Bool
  | .exactly a, c => a = c
  | .anyChar, _ => true
  | .anyText, _ => true
  | .oneOf negated ranges, c => negated != inRanges ranges c

def accepts : Pattern → Text → Bool
  | [], t => t.isEmpty
  | .anyText :: p, [] => accepts p []
  | .anyText :: p, c :: t => accepts p (c :: t) || accepts (.anyText :: p) t
  | _ :: _, [] => false
  | item :: p, c :: t => itemAccepts item c && accepts p t
termination_by p t => p.length + t.length

def classRanges (name : Text) : List (Char × Char) :=
  match String.ofList name with
  | "alpha" => [('a', 'z'), ('A', 'Z')]
  | "digit" => [('0', '9')]
  | "alnum" => [('a', 'z'), ('A', 'Z'), ('0', '9')]
  | "upper" => [('A', 'Z')]
  | "lower" => [('a', 'z')]
  | "space" => [('\t', '\r'), (' ', ' ')]
  | "blank" => [('\t', '\t'), (' ', ' ')]
  | "punct" => [('!', '/'), (':', '@'), ('[', '\u0060'), ('\x7b', '~')]
  | "xdigit" => [('0', '9'), ('a', 'f'), ('A', 'F')]
  | "cntrl" => [('\x00', '\x1f'), ('\x7f', '\x7f')]
  | "print" => [(' ', '~')]
  | "graph" => [('!', '~')]
  | _ => []

def ranges? : (fuel : Nat) → (first : Bool) → Text → Option (List (Char × Char) × Text)
  | 0, _, _ => none
  | _ + 1, _, [] => none
  | fuel + 1, first, c :: r =>
    if c = ']' && !first then some ([], r)
    else if c = '[' && r.head? = some ':' then
      let name := r.tail.takeWhile (· ≠ ':')
      match r.tail.drop name.length with
      | ':' :: ']' :: r =>
        (ranges? fuel false r).map fun p => (classRanges name ++ p.1, p.2)
      | _ => (ranges? fuel false r).map fun p => ((c, c) :: p.1, p.2)
    else
      match r with
      | '-' :: d :: after =>
        if d = ']' then (ranges? fuel false r).map fun p => ((c, c) :: p.1, p.2)
        else (ranges? fuel false after).map fun p => ((c, d) :: p.1, p.2)
      | _ => (ranges? fuel false r).map fun p => ((c, c) :: p.1, p.2)

def bracket? (negations : List Char) (t : Text) : Option (PatternItem × Text) :=
  match t with
  | [] => none
  | c :: r =>
    let negated := negations.contains c
    let body := if negated then r else t
    (ranges? (body.length + 1) true body).map fun p => (.oneOf negated p.1, p.2)

def ofMarkedFrom : (skip : Nat) → Marked → Pattern
  | _, [] => []
  | skip + 1, _ :: r => ofMarkedFrom skip r
  | 0, (c, special) :: r =>
    if special && c = '*' then .anyText :: ofMarkedFrom 0 r
    else if special && c = '?' then .anyChar :: ofMarkedFrom 0 r
    else if special && c = '[' then
      match bracket? ['!', '^'] (r.map (·.1)) with
      | some (item, after) => item :: ofMarkedFrom (r.length - after.length) r
      | none => .exactly c :: ofMarkedFrom 0 r
    else .exactly c :: ofMarkedFrom 0 r

def ofMarked (m : Marked) : Pattern := ofMarkedFrom 0 m

def isActive (p : Pattern) : Bool :=
  p.any fun
    | .exactly _ => false
    | _ => true

/-- What is left of a text when the shortest or longest beginning that matches is removed. -/
def trimHead (p : Pattern) (longest : Bool) (t : Text) : Text :=
  let lengths := List.range (t.length + 1)
  match (if longest then lengths.reverse else lengths).find? fun n => p.accepts (t.take n) with
  | some n => t.drop n
  | none => t

def trimTail (p : Pattern) (longest : Bool) (t : Text) : Text :=
  let lengths := List.range (t.length + 1)
  match (if longest then lengths else lengths.reverse).find? fun n => p.accepts (t.drop n) with
  | some n => t.take n
  | none => t

end Pattern

end SoloCall.Shell
