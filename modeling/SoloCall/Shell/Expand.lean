import SoloCall.Shell.Arithmetic
import SoloCall.Shell.Pattern
import SoloCall.Shell.State
import SoloCall.Shell.Tilde

namespace SoloCall.Shell

open Run

/-- A character of an expanded word with what may still happen to it. A `fixed` one was quoted, a
`plain` one stands in the script, a `spread` one came out of an expansion and may be a separator.
`present` marks quotes, which make a field even if there is nothing between them, and `cut` the
place between two fields. -/
inductive Glyph where
  | fixed (c : Char)
  | plain (c : Char)
  | spread (c : Char)
  | present
  | cut
  deriving DecidableEq, Repr

namespace Glyph

def ofText (quoted : Bool) (t : Text) : List Glyph :=
  if quoted then .present :: t.map .fixed else t.map .spread

def ofTexts (quoted : Bool) : List Text → List Glyph
  | [] => []
  | [t] => ofText quoted t
  | t :: rest => ofText quoted t ++ .cut :: ofTexts quoted rest

def text (gs : List Glyph) : Text :=
  gs.filterMap fun
    | fixed c => some c
    | plain c => some c
    | spread c => some c
    | cut => some ' '
    | present => none

def marked (gs : List Glyph) : Marked :=
  gs.filterMap fun
    | fixed c => some (c, false)
    | plain c => some (c, true)
    | spread c => some (c, true)
    | cut => some (' ', false)
    | present => none

end Glyph

/-- Fields that are being cut: those that are complete, newest first, the one that has begun, and
whether the last one was ended by a blank. -/
structure Fields where
  done : List Marked := []
  current : Option Marked := none
  afterBlank : Bool := false

namespace Fields

def finish (f : Fields) : Fields :=
  match f.current with
  | some m => { f with done := m.reverse :: f.done, current := none }
  | none => f

def add (f : Fields) (c : Char) (active : Bool) : Fields :=
  { f with current := some ((c, active) :: f.current.getD []), afterBlank := false }

def step (separators : Text) (f : Fields) : Glyph → Fields
  | .fixed c => f.add c false
  | .plain c => f.add c true
  | .spread c =>
    if !separators.contains c then f.add c true
    else if c = ' ' || c = '\t' || c = '\n' then
      if f.current.isSome then { f.finish with afterBlank := true } else f
    else if f.current.isSome then { f.finish with afterBlank := false }
    else if f.afterBlank then { f with afterBlank := false }
    else { f with done := [] :: f.done }
  | .present => { f with current := some (f.current.getD []) }
  | .cut => { f.finish with afterBlank := false }

def of (separators : Text) (gs : List Glyph) : List Marked :=
  (gs.foldl (step separators) {}).finish.done.reverse

end Fields

def separators : Run Text := do
  match (← process).find? "IFS".toList with
  | some v => return v.value?.getD [' ', '\t', '\n']
  | none => return [' ', '\t', '\n']

def markedPieces (m : Marked) : List Marked :=
  m.foldr (fun c pieces =>
    if c.1 = '/' then [] :: pieces
    else match pieces with
      | [] => [[c]]
      | piece :: rest => (c :: piece) :: rest) [[]]

/-- The paths that go on from the given ones by names that match; the text of a path stays as it
was written. -/
def matchPiece (files : FileSystem) (cwd : Location) (last : Bool) (piece : Marked)
    (found : List Text) : List Text :=
  let pattern := Pattern.ofMarked piece
  let literal : Text := piece.map (·.1)
  let ending : Text := if last then [] else ['/']
  found.flatMap fun above =>
    if !pattern.isActive then
      let path := above ++ literal
      if last && !piece.isEmpty && !files.pathExists cwd path then [] else [path ++ ending]
    else
      match files.locate cwd (if above.isEmpty then ['.'] else above) with
      | .error _ => []
      | .ok l =>
        let names := (['.'] :: ['.', '.'] :: files.children l).filter fun name =>
          pattern.accepts name && (name.head? ≠ some '.' || literal.head? = some '.')
        let names := names.filter fun name =>
          last || name = ['.'] || name = ['.', '.'] ||
            (files.get? (l ++ [name])).any Entry.isDirectory
        (names.mergeSort fun x y => bytesLe (Utf8.encode x) (Utf8.encode y)).map fun name =>
          above ++ name ++ ending

def globbed (files : FileSystem) (cwd : Location) (m : Marked) : List Text :=
  let literal : Text := m.map (·.1)
  if !(Pattern.ofMarked m).isActive then [literal]
  else
    let pieces := markedPieces m
    let found := (pieces.zipIdx.foldl (fun found x =>
      matchPiece files cwd (x.2 + 1 = pieces.length) x.1 found) [[]])
    if found.isEmpty then [literal] else found

def parameterValue? (name : Text) : Run (Option Text) := do
  let p ← process
  match name with
  | ['#'] => return some (decimal p.args.length)
  | ['?'] => return some (decimal p.status)
  | ['$'] => return some (decimal p.mainPid)
  | ['!'] => return p.lastJob?.map decimal
  | ['-'] => return some ((if p.options.exitOnError then ['e'] else [])
      ++ (if p.options.noGlob then ['f'] else []) ++ if p.options.failOnUnset then ['u'] else [])
  | ['0'] => return some p.name
  | _ =>
    if !name.isEmpty && name.all isDigit then
      return if ofDigits name = 0 then some p.name else p.args[ofDigits name - 1]?
    else return p.value? name

def assignVariable (name value : Text) : Run Unit := do
  let p ← process
  if (p.find? name).any Variable.readOnly then fault (name ++ ": is read only".toList)
  modifyProcess fun p => p.assign name value

section

variable (self : Runner)

/-- Runs in a process of its own, which ends with the run. Only files, time and pipes keep what was
done. -/
def inSubshell (act : Run Unit) : Run Unit := do
  let outer ← process
  let pid ← newPid
  modifyProcess fun p => { p with
    pid := pid
    traps := p.traps.filter fun t => t.2.isEmpty }
  let leave : Run Unit := modifyProcess fun inner => { outer with status := inner.status }
  tryCatch (do
    act
    leave) fun flow =>
      match flow with
      | .exit | .leave | .stop _ | .next _ => leave
      | .killed victim signal => do
        modifyProcess fun _ => { outer with status := 128 + signal }
        if victim ≠ pid then throw flow
      | .halted => throw flow

/-- The output of statements, without the line ends at its end. Their status is kept apart from that
of the last command. -/
def outputOf (body : List Statement) : Run Text := do
  let n ← newPipe
  let before ← status
  inSubshell do
    modifyProcess fun p => p.setChannel 1 (some (.pipe n))
    body.forM self
  modifyProcess fun p => { p with outputStatus := p.status, status := before }
  let t := Utf8.decodeLossy (← drain n)
  return Text.dropEndWhile (· = '\n') (t.filter (· ≠ '\x00'))

mutual

def expandFragment : (fuel : Nat) → Fragment → Run (List Glyph)
  | 0, _ => throw .halted
  | fuel + 1, f =>
    match f with
    | .literal t true => return .present :: t.map .fixed
    | .literal t false => return t.map .plain
    | .output body quoted => return Glyph.ofText quoted (← outputOf self body)
    | .arithmetic expression quoted => do
      let t := Glyph.text (← expandFragments fuel expression)
      match Sum.parse t with
      | .error missing =>
        fault ("arithmetic expression: expecting ".toList ++ missing.text ++ ": \"".toList ++ t
          ++ ['"'])
      | .ok e =>
        let vars := (← process).bindings.filterMap fun v => v.value?.map fun t => (v.name, t)
        match e.eval vars with
        | .error .divisionByZero =>
          fault ("arithmetic expression: division by zero: \"".toList ++ t ++ ['"'])
        | .error (.notANumber value) => fault ("Illegal number: ".toList ++ value)
        | .ok (n, assigned) =>
          for a in (assigned.take (assigned.length - vars.length)).reverse do
            assignVariable a.1 a.2
          return Glyph.ofText quoted (signedDecimal n)
    | .parameter name modifier quoted => expandParameter fuel name modifier quoted

def expandParameter : (fuel : Nat) → Text → Modifier → (quoted : Bool) → Run (List Glyph)
  | 0, _, _, _ => throw .halted
  | fuel + 1, name, modifier, quoted => do
    let p ← process
    let isAll := name = ['@'] || name = ['*']
    let value? ← if isAll then
        pure (if p.args.isEmpty then none else some (Text.join [' '] p.args))
      else parameterValue? name
    let show_ : List Glyph ← if name = ['*'] && quoted then do
        let between := (← separators).take 1
        pure (Glyph.ofText true (Text.join between p.args))
      else if isAll then pure (Glyph.ofTexts quoted p.args)
      else pure (Glyph.ofText quoted (value?.getD []))
    let missing (emptyToo : Bool) : Bool :=
      value?.isNone || (emptyToo && value?.any List.isEmpty)
    let expandWord (word : Word) : Run (List Glyph) := do
      let gs ← expandFragments fuel word
      return if quoted then .present :: gs else gs
    let demand : Run Unit := do
      if value?.isNone && p.options.failOnUnset && !isAll then
        fault (name ++ ": parameter not set".toList)
    match modifier with
    | .plain =>
      demand
      return show_
    | .length =>
      demand
      return Glyph.ofText quoted (decimal (Utf8.encode (value?.getD [])).length)
    | .orElse emptyToo word =>
      if missing emptyToo then expandWord word else return show_
    | .orAssign emptyToo word =>
      if missing emptyToo then
        let t := Glyph.text (← expandFragments fuel word)
        assignVariable name t
        return Glyph.ofText quoted t
      else return show_
    | .orFail emptyToo word =>
      if missing emptyToo then
        let t := Glyph.text (← expandFragments fuel word)
        fault (name ++ ": ".toList ++ if t.isEmpty then
          (if emptyToo then "parameter not set or null".toList else "parameter not set".toList)
          else t)
      else return show_
    | .instead emptyToo word =>
      if missing emptyToo then return Glyph.ofText quoted [] else expandWord word
    | .trimmed part pattern =>
      demand
      let m := Glyph.marked (← expandFragments fuel pattern)
      let pattern := Pattern.ofMarked m
      let t := value?.getD []
      return Glyph.ofText quoted <| match part with
        | .shortestHead => pattern.trimHead false t
        | .longestHead => pattern.trimHead true t
        | .shortestTail => pattern.trimTail false t
        | .longestTail => pattern.trimTail true t

def expandFragments : (fuel : Nat) → List Fragment → Run (List Glyph)
  | 0, _ => throw .halted
  | _ + 1, [] => return []
  | fuel + 1, f :: rest => do
    let first ← expandFragment fuel f
    return first ++ (← expandFragments fuel rest)

end

def wordDepth : Nat := 100000

def expandGlyphs (assigning : Bool) (w : Word) : Run (List Glyph) := do
  let home? := (← process).value? "HOME".toList
  expandFragments self wordDepth (Tilde.inWord home? assigning w)

def expandText (w : Word) : Run Text := return Glyph.text (← expandGlyphs self false w)

def expandValue (w : Word) : Run Text := return Glyph.text (← expandGlyphs self true w)

def expandPattern (w : Word) : Run Pattern :=
  return Pattern.ofMarked (Glyph.marked (← expandGlyphs self false w))

def expandFields (w : Word) : Run (List Text) := do
  let gs ← expandGlyphs self false w
  let fields := Fields.of (← separators) gs
  let s ← get
  if s.process.options.noGlob then return fields.map fun m => m.map (·.1)
  return fields.flatMap (globbed s.files s.process.cwd)

def expandAll (ws : List Word) : Run (List Text) := do
  let mut all := []
  for w in ws do
    all := all ++ (← expandFields self w)
  return all

end

end SoloCall.Shell
