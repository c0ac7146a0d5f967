import SoloCall.Text.Basic

namespace SoloCall

abbrev Path := Text

namespace Path

def isAbsolute (p : Path) : Bool := p.head? = some '/'

def anchorLength (p : Path) : Nat :=
  match p with
  | '/' :: _ => 1
  | ['.'] => 1
  | '.' :: '/' :: _ => 1
  | _ => 0

def anchor (p : Path) : Text := p.take (anchorLength p)

def isTrivial (piece : Text) : Bool := piece.isEmpty || piece = ['.']

/-- The pieces after the anchor, without the trivial ones at the end. -/
def pieces (p : Path) : List Text :=
  ((Text.split '/' (p.drop (anchorLength p))).reverse.dropWhile isTrivial).reverse

def fileName? (p : Path) : Option Text :=
  match (pieces p).getLast? with
  | none => none
  | some piece => if piece = ['.', '.'] then none else some piece

def parent? (p : Path) : Option Path :=
  if (pieces p).isEmpty then if p.head? = some '.' then some [] else none
  else
    let kept := ((pieces p).dropLast.reverse.dropWhile isTrivial).reverse
    some (anchor p ++ Text.join ['/'] kept)

def cutExtension (name : Text) : Text × Option Text :=
  let after := Text.endWhile (· ≠ '.') name
  let before := (Text.dropEndWhile (· ≠ '.') name).dropLast
  if before.isEmpty then (name, none) else (before, some after)

def stem? (p : Path) : Option Text := (fileName? p).map fun name => (cutExtension name).1

def extension? (p : Path) : Option Text := (fileName? p).bind fun name => (cutExtension name).2

/-- `q` read from the directory `p`; an absolute `q` stands for itself. -/
def join (p q : Path) : Path :=
  if isAbsolute q then q
  else if p.isEmpty || p.getLast? = some '/' then p ++ q
  else p ++ '/' :: q

def cutName (p : Path) : Path × Text :=
  let bare := Text.dropEndWhile (· = '/') p
  let name := Text.endWhile (· ≠ '/') bare
  (bare.take (bare.length - name.length), name)

def steps (p : Path) : List Text := (Text.split '/' p).filter fun piece => !isTrivial piece

/-- A path from the root without empty pieces and `.`; two leading slashes and a final one stay,
and so does `..`. -/
def absolute (cwd p : Path) : Path :=
  let start : Path :=
    match p with
    | '/' :: '/' :: '/' :: _ => ['/']
    | '/' :: '/' :: _ => ['/', '/']
    | '/' :: _ => ['/']
    | _ => cwd
  let whole := (steps p).foldl join start
  if p.getLast? = some '/' then join whole [] else whole

end Path

end SoloCall
