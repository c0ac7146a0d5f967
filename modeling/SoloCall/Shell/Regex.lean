import SoloCall.Shell.Pattern
import SoloCall.Text.Decimal

namespace SoloCall.Shell

inductive Regex where
  | nothing
  | one (item : PatternItem)
  | lineStart
  | lineEnd
  | seq (a b : Regex)
  | alt (a b : Regex)
  | many (a : Regex) (least : Nat) (most? : Option Nat)
  | group (n : Nat) (a : Regex)
  | back (n : Nat)
  deriving DecidableEq, Repr

namespace Regex

/-- A place in a line: what lies before it, newest first, what lies after it, and what the groups
have matched. -/
structure Point where
  before : Text
  rest : Text
  groups : List (Nat × Text) := []
  deriving DecidableEq

def distinct (ps : List Point) : List Point :=
  (ps.foldl (fun seen p =>
    if seen.any fun q => q.rest.length = p.rest.length then seen else p :: seen) []).reverse

/-- The points reached by a number of steps between the bounds; a step that stays where it is ends
the repetition. -/
def repeated (step : Point → List Point) :
    (fuel least : Nat) → (most? : Option Nat) → List Point → List Point
  | 0, _, _, ps => ps
  | fuel + 1, least, most?, ps =>
    if ps.isEmpty then []
    else if most? = some 0 then ps
    else
      let on := distinct (ps.flatMap fun p =>
        (step p).filter fun q => q.rest.length < p.rest.length || 0 < least)
      let further := repeated step fuel (least - 1) (most?.map (· - 1)) on
      if least = 0 then distinct (further ++ ps) else further

def advance (p : Point) (n : Nat) : Point :=
  { p with before := (p.rest.take n).reverse ++ p.before, rest := p.rest.drop n }

def ends : Regex → Point → List Point
  | nothing, p => [p]
  | one item, p =>
    match p.rest with
    | c :: _ => if Pattern.itemAccepts item c then [advance p 1] else []
    | [] => []
  | lineStart, p => if p.before.isEmpty then [p] else []
  | lineEnd, p => if p.rest.isEmpty then [p] else []
  | seq a b, p => distinct ((ends a p).flatMap (ends b))
  | alt a b, p => distinct (ends a p ++ ends b p)
  | many a least most?, p => repeated (ends a) (p.rest.length + least + 1) least most? [p]
  | group n a, p =>
    (ends a p).map fun q =>
      { q with groups := (n, p.rest.take (p.rest.length - q.rest.length)) :: q.groups }
  | back n, p =>
    let t := (p.groups.lookup n).getD []
    if Text.startsWith t p.rest then [advance p t.length] else []

def longest? (r : Regex) (p : Point) : Option Point :=
  (ends r p).foldl (fun best q =>
    match best with
    | none => some q
    | some b => if q.rest.length < b.rest.length then some q else some b) none

/-- The start and the end of the leftmost match. -/
def find? (r : Regex) : (before rest : Text) → Option (Point × Point)
  | before, [] => (longest? r ⟨before, [], []⟩).map fun q => (⟨before, [], []⟩, q)
  | before, c :: t =>
    match longest? r ⟨before, c :: t, []⟩ with
    | some q => some (⟨before, c :: t, []⟩, q)
    | none => find? r (c :: before) t

def hasGroup : Regex → Bool
  | group .. => true
  | seq a b | alt a b => hasGroup a || hasGroup b
  | many a .. => hasGroup a
  | nothing | one _ | lineStart | lineEnd | back _ => false

def isMatch (r : Regex) (line : Text) : Bool := (find? r [] line).isSome

inductive Mark where
  | plain (c : Char)
  | any | caret | dollar | open_ | close | bar
  | times (least : Nat) (most? : Option Nat)
  | set (item : PatternItem)
  | back (n : Nat)
  deriving DecidableEq

def bounds? (t : Text) : Option (Nat × Option Nat × Nat) :=
  let low := t.takeWhile isDigit
  match t.drop low.length with
  | ',' :: r =>
    let high := r.takeWhile isDigit
    some (ofDigits low, if high.isEmpty then none else some (ofDigits high),
      low.length + 1 + high.length)
  | _ => if low.isEmpty then none else some (ofDigits low, some (ofDigits low), low.length)

def classMark? : Char → Option PatternItem
  | 'w' => some (.oneOf false [('a', 'z'), ('A', 'Z'), ('0', '9'), ('_', '_')])
  | 'W' => some (.oneOf true [('a', 'z'), ('A', 'Z'), ('0', '9'), ('_', '_')])
  | 's' => some (.oneOf false [('\t', '\r'), (' ', ' ')])
  | 'S' => some (.oneOf true [('\t', '\r'), (' ', ' ')])
  | _ => none

def marks (extended : Bool) : (skip : Nat) → (first : Bool) → Text → List Mark
  | _, _, [] => []
  | skip + 1, first, _ :: r => marks extended skip first r
  | 0, first, c :: r =>
    let operator (c : Char) : Option Mark :=
      match c with
      | '(' => some .open_
      | ')' => some .close
      | '|' => some .bar
      | '+' => some (.times 1 none)
      | '?' => some (.times 0 (some 1))
      | _ => none
    let brace (r : Text) (closing : Nat) : Option (Mark × Nat) :=
      (bounds? r).map fun b => (.times b.1 b.2.1, b.2.2 + closing)
    match c with
    | '.' => .any :: marks extended 0 false r
    | '*' => (if first then .plain '*' else .times 0 none) :: marks extended 0 false r
    | '^' =>
      if first || extended then .caret :: marks extended 0 true r
      else .plain '^' :: marks extended 0 false r
    | '$' =>
      let last := match r with
        | [] => true
        | '\\' :: ')' :: _ => true
        | '\\' :: '|' :: _ => true
        | _ => false
      (if last || extended then .dollar else .plain '$') :: marks extended 0 false r
    | '[' =>
      match Pattern.bracket? ['^'] r with
      | some (item, after) => .set item :: marks extended (r.length - after.length) false r
      | none => .plain '[' :: marks extended 0 false r
    | '\\' =>
      match r with
      | [] => [.plain '\\']
      | d :: after =>
        if extended then
          match classMark? d with
          | some item => .set item :: marks extended 1 false r
          | none =>
            (if '1' ≤ d && d ≤ '9' then .back (d.toNat - 48) else .plain d)
              :: marks extended 1 false r
        else if d = '\x7b' then
          match brace after 3 with
          | some (m, n) => m :: marks extended n false r
          | none => .plain d :: marks extended 1 false r
        else match operator d, classMark? d with
          | some m, _ => m :: marks extended 1 (m = .open_ || m = .bar) r
          | none, some item => .set item :: marks extended 1 false r
          | none, none =>
            (if '1' ≤ d && d ≤ '9' then .back (d.toNat - 48)
              else if d = 'n' then .plain '\n' else .plain d) :: marks extended 1 false r
    | '\x7b' =>
      if extended then
        match brace r 1 with
        | some (m, n) => m :: marks extended n false r
        | none => .plain c :: marks extended 0 false r
      else .plain c :: marks extended 0 false r
    | _ =>
      match if extended then operator c else none with
      | some m => m :: marks extended 0 (m = .open_ || m = .bar) r
      | none => .plain c :: marks extended 0 false r

/-- An expression that is being read: the branches and the sequence before the last piece, and the
last piece, which a repetition would apply to. -/
structure Level where
  number : Nat
  branches : Option Regex := none
  before : Regex := .nothing
  last : Option Regex := none

namespace Level

def sequence (l : Level) : Regex :=
  match l.before, l.last with
  | before, none => before
  | .nothing, some a => a
  | before, some a => .seq before a

def whole (l : Level) : Regex :=
  match l.branches with
  | none => l.sequence
  | some b => .alt b l.sequence

def push (l : Level) (a : Regex) : Level := { l with before := l.sequence, last := some a }

end Level

structure Building where
  levels : List Level
  groups : Nat := 0

def build? (b : Building) (m : Mark) : Option Building :=
  match b.levels with
  | [] => none
  | level :: outer =>
    let push (a : Regex) : Option Building := some { b with levels := level.push a :: outer }
    match m with
    | .plain c => push (.one (.exactly c))
    | .any => push (.one .anyChar)
    | .set item => push (.one item)
    | .caret => push .lineStart
    | .dollar => push .lineEnd
    | .back n => push (.back n)
    | .times least most? =>
      match level.last with
      | some a =>
        some { b with levels := { level with last := some (.many a least most?) } :: outer }
      | none => some b
    | .bar =>
      let fresh := { level with branches := some level.whole, before := .nothing, last := none }
      some { b with levels := fresh :: outer }
    | .open_ => some ⟨⟨b.groups + 1, none, .nothing, none⟩ :: level :: outer, b.groups + 1⟩
    | .close =>
      match outer with
      | above :: outer =>
        some { b with levels := above.push (.group level.number level.whole) :: outer }
      | [] => none

def parse? (extended : Bool) (t : Text) : Option Regex := do
  let b ← (marks extended 0 true t).foldlM build? ⟨[⟨0, none, .nothing, none⟩], 0⟩
  match b.levels with
  | [level] => some level.whole
  | _ => none

def ofText (t : Text) : Regex := t.foldr (fun c r => .seq (.one (.exactly c)) r) .nothing

end Regex

end SoloCall.Shell
