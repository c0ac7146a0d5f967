import SoloCall.Shell.Regex
import SoloCall.Shell.Utility.Desk

namespace SoloCall.Shell

namespace Edit

inductive Address where
  | line (n : Nat)
  | last
  | matching (r : Regex)

inductive Piece where
  | text (t : Text)
  | group (n : Nat)

inductive Action where
  | substitute (r : Regex) (replacement : List Piece) (everywhere print : Bool) (nth : Nat)
  | print
  | delete
  | quit
  | lineNumber
  | transliterate (source target : Text)
  | append (t : Text)
  | insert (t : Text)
  | change (t : Text)

/-- A command with the lines it applies to; `active` tells that its range has begun. -/
structure Command where
  first? : Option Address := none
  second? : Option Address := none
  negated : Bool := false
  action : Action
  active : Bool := false

/-- The text up to an unescaped delimiter, and what follows it. An escaped delimiter loses its
backslash. -/
def delimited? (d : Char) : Text → Option (Text × Text)
  | [] => none
  | '\\' :: c :: r =>
    (delimited? d r).map fun p => (if c = d then c :: p.1 else '\\' :: c :: p.1, p.2)
  | c :: r => if c = d then some ([], r) else (delimited? d r).map fun p => (c :: p.1, p.2)

def pieces : (skip : Nat) → Text → List Piece
  | _, [] => []
  | skip + 1, _ :: r => pieces skip r
  | 0, '\\' :: r =>
    match r with
    | [] => [.text ['\\']]
    | c :: _ =>
      (if isDigit c then .group (c.toNat - 48) else if c = 'n' then .text ['\n'] else .text [c])
        :: pieces 1 r
  | 0, '&' :: r => .group 0 :: pieces 0 r
  | 0, c :: r => .text [c] :: pieces 0 r

def address? (extended : Bool) (t : Text) : Option (Option Address × Text) :=
  match t with
  | '$' :: r => some (some .last, r)
  | '/' :: r => do
    let (pattern, r) ← delimited? '/' r
    return (some (.matching (← Regex.parse? extended pattern)), r)
  | _ =>
    let digits := t.takeWhile isDigit
    if digits.isEmpty then some (none, t)
    else some (some (.line (ofDigits digits)), t.drop digits.length)

def skipBlanks (t : Text) : Text := t.dropWhile fun c => c = ' ' || c = '\t'

def ownText (r : Text) : Text × Text :=
  let r := skipBlanks r
  let r := match r with
    | '\\' :: '\n' :: r => r
    | '\\' :: r => skipBlanks r
    | r => r
  (r.takeWhile (· ≠ '\n'), r.dropWhile (· ≠ '\n'))

def action? (extended : Bool) : Text → Option (Action × Text)
  | 's' :: d :: r => do
    let (pattern, r) ← delimited? d r
    let (replacement, r) ← delimited? d r
    let flags := r.takeWhile fun c => c = 'g' || c = 'p' || c = 'I' || c = 'i' || isDigit c
    let nth := ofDigits (flags.filter isDigit)
    return (.substitute (← Regex.parse? extended pattern) (pieces 0 replacement)
      (flags.contains 'g') (flags.contains 'p') (if nth = 0 then 1 else nth),
      r.drop flags.length)
  | 'y' :: d :: r => do
    let (source, r) ← delimited? d r
    let (target, r) ← delimited? d r
    return (.transliterate source target, r)
  | 'p' :: r => some (.print, r)
  | 'd' :: r => some (.delete, r)
  | 'q' :: r => some (.quit, r)
  | '=' :: r => some (.lineNumber, r)
  | 'a' :: r => some (.append (ownText r).1, (ownText r).2)
  | 'i' :: r => some (.insert (ownText r).1, (ownText r).2)
  | 'c' :: r => some (.change (ownText r).1, (ownText r).2)
  | _ => none

def script? (extended : Bool) : (fuel : Nat) → Text → Option (List Command)
  | 0, _ => none
  | fuel + 1, t => do
    let t := t.dropWhile fun c => c = ' ' || c = '\t' || c = '\n' || c = ';'
    if t.isEmpty then return []
    if t.head? = some '#' then script? extended fuel (t.dropWhile (· ≠ '\n'))
    else
      let (first?, t) ← address? extended t
      let (second?, t) ← match t with
        | ',' :: r => address? extended r
        | _ => some (none, t)
      let t := skipBlanks t
      let negated := t.head? = some '!'
      let t := skipBlanks (if negated then t.tail else t)
      let (action, t) ← action? extended t
      return { first?, second?, negated, action } :: (← script? extended fuel t)

structure Line where
  number : Nat
  isLast : Bool
  text : Text
  before : List Text := []
  after : List Text := []
  deleted : Bool := false
  quit : Bool := false

def Address.selects (l : Line) : Address → Bool
  | line n => l.number = n
  | last => l.isLast
  | matching r => r.isMatch l.text

def Command.step (c : Command) (l : Line) : Bool × Command :=
  match c.first?, c.second? with
  | none, _ => (!c.negated, c)
  | some a, none => (a.selects l != c.negated, c)
  | some a, some b =>
    if c.active then
      let ended : Bool := match b with
        | .line n => n ≤ l.number
        | b => b.selects l
      let past : Bool := match b with
        | .line n => n < l.number
        | _ => false
      if past then (a.selects l != c.negated, { c with active := false })
      else (!c.negated, { c with active := !ended })
    else if a.selects l then
      let ended : Bool := match b with
        | .line n => n ≤ l.number
        | _ => false
      (!c.negated, { c with active := !ended })
    else (c.negated, c)

def fill (whole : Text) (groups : List (Nat × Text)) (ps : List Piece) : Text :=
  ps.flatMap fun
    | .text t => t
    | .group 0 => whole
    | .group n => (groups.lookup n).getD []

def substitute (r : Regex) (ps : List Piece) (everywhere : Bool) :
    (fuel nth : Nat) → (before rest : Text) → Text × Bool
  | 0, _, _, rest => (rest, false)
  | fuel + 1, nth, before, rest =>
    match Regex.find? r before rest with
    | none => (rest, false)
    | some (p, q) =>
      let skipped := rest.take (rest.length - p.rest.length)
      let whole := p.rest.take (p.rest.length - q.rest.length)
      let put := if nth ≤ 1 then fill whole q.groups ps else whole
      let done := nth ≤ 1 && !everywhere
      if done then (skipped ++ put ++ q.rest, true)
      else
        let step (before rest : Text) := substitute r ps everywhere fuel (nth - 1) before rest
        if whole.isEmpty then
          match q.rest with
          | [] => (skipped ++ put, nth ≤ 1)
          | c :: more =>
            let (t, changed) := step (c :: q.before) more
            (skipped ++ put ++ c :: t, changed || nth ≤ 1)
        else
          let (t, changed) := step q.before q.rest
          (skipped ++ put ++ t, changed || nth ≤ 1)

def Action.apply (a : Action) (l : Line) : Line :=
  match a with
  | .substitute r ps everywhere shown nth =>
    let (t, changed) := Edit.substitute r ps everywhere (l.text.length + 2) nth [] l.text
    if changed then
      { l with text := t, before := if shown then l.before ++ [t] else l.before }
    else l
  | .print => { l with before := l.before ++ [l.text] }
  | .delete => { l with deleted := true }
  | .quit => { l with quit := true }
  | .lineNumber => { l with before := l.before ++ [decimal l.number] }
  | .transliterate source target =>
    { l with text := l.text.map fun c => ((source.zip target).lookup c).getD c }
  | .append t => { l with after := l.after ++ [t] }
  | .insert t => { l with before := l.before ++ [t] }
  | .change t => { l with before := l.before ++ [t], deleted := true }

def applyAll : List Command → Line → List Command × Line
  | [], l => ([], l)
  | c :: cs, l =>
    if l.deleted || l.quit then (c :: cs, l)
    else
      let (applies, c) := c.step l
      let l := if applies then c.action.apply l else l
      let (cs, l) := applyAll cs l
      (c :: cs, l)

/-- The lines that are written for the lines from a number on, and whether the last of them is what
has become of the last line. -/
def run (silent : Bool) : (cs : List Command) → (number : Nat) → List Text → List Text × Bool
  | _, _, [] => ([], false)
  | cs, number, t :: rest =>
    let (cs, l) := applyAll cs { number, isLast := rest.isEmpty, text := t }
    let own := if silent || l.deleted then [] else [l.text]
    let written := l.before ++ own
    if l.quit || rest.isEmpty then
      (written ++ l.after, rest.isEmpty && !l.quit && l.after.isEmpty && !written.isEmpty)
    else
      let (further, endsInLast) := run silent cs (number + 1) rest
      (written ++ l.after ++ further, endsInLast)

end Edit

namespace Utility

open Work

def sed (args : List Text) : Work Status :=
  withArguments "nErsuz" "ef" (args.filter fun t => t ≠ ['-', 'i']) 1 fun a => do
    let extended := a.has 'E' || a.has 'r'
    let (script, operands) := match a.values 'e' with
      | [] => (a.operands.headD [], a.operands.tail)
      | es => (Text.join ['\n'] es, a.operands)
    match Edit.script? extended (script.length + 1) script with
    | none =>
      complain "-e expression #1, char 0: unknown command".toList
      return 1
    | some commands =>
      if args.contains ['-', 'i'] then
        each operands fun p => do
          match ← readOperand p with
          | .error e =>
            complain ("can't read ".toList ++ p ++ ": ".toList ++ e.text)
            return 2
          | .ok b =>
            let t := edited (a.has 'n') commands b
            let _ ← onFiles fun fs cwd => fs.write cwd p t
            return 0
      else
        let mut all : Bytes := []
        let mut status := 0
        for p in (if operands.isEmpty then [['-']] else operands) do
          match ← readOperand p with
          | .error e =>
            let what := if e = .isADirectory then "read error on " else "can't read "
            complain (what.toList ++ p ++ ": ".toList ++ e.text)
            status := if e = .isADirectory then 4 else Nat.max status 2
          | .ok b => all := all ++ b
        say (edited (a.has 'n') commands all)
        return status
where
  edited (silent : Bool) (commands : List Edit.Command) (b : Bytes) : Bytes :=
    let lines := (byteLines b).map Utf8.decodeLossy
    let (written, endsInLast) := Edit.run silent commands 1 lines
    let t := Utf8.encode (written.flatMap fun l => l ++ ['\n'])
    if endsInLast && b.getLast? ≠ some 10 then t.dropLast else t

end Utility

end SoloCall.Shell
