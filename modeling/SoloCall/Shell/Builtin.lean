import SoloCall.Shell.Job
import SoloCall.Shell.Utility.Table

namespace SoloCall.Shell

open Run

/-- The built-in commands whose errors end the shell and whose assignments stay. -/
def specialNames : List Text := [
  ":".toList, ".".toList, "break".toList, "continue".toList, "eval".toList, "exec".toList,
  "exit".toList, "export".toList, "local".toList, "readonly".toList, "return".toList, "set".toList,
  "shift".toList, "times".toList, "trap".toList, "unset".toList]

def builtinNames : List Text := specialNames ++ [
  "cd".toList, "chdir".toList, "command".toList, "echo".toList, "false".toList, "hash".toList,
  "jobs".toList, "kill".toList, "printf".toList, "pwd".toList, "read".toList,
  "test".toList, "[".toList, "true".toList, "type".toList, "ulimit".toList, "umask".toList,
  "wait".toList]

def failWith (status : Status) (t : Text) : Run Unit := do
  complain t
  setStatus status

def put (b : Bytes) : Run Unit := do
  if ← emit 1 b then setStatus 0 else setStatus 1

def putFor (name : Text) (b : Bytes) : Run Unit := do
  put b
  if (← status) ≠ 0 then complain (name ++ ": I/O error".toList)

def putLine (t : Text) : Run Unit := put (Utf8.encode (t ++ ['\n']))

def openFault (creating : Bool) (t : Text) (e : OsError) : Text :=
  let reason := match e with
    | .notFound => if creating then "Directory nonexistent".toList else "No such file".toList
    | e => e.text
  (if creating then "cannot create ".toList else "cannot open ".toList) ++ t ++ ": ".toList
    ++ reason

def inQuotes (t : Text) : Text :=
  '\'' :: t.flatMap (fun c => if c = '\'' then ['\'', '"', '\'', '"', '\''] else [c]) ++ ['\'']

/-- The place a path leads to by its names alone: `..` takes back the name before it, whether or not
there is such a place. -/
def followNames (start : Location) (p : Path) : Location :=
  (Path.steps p).foldl (fun l name => if name = ['.', '.'] then l.dropLast else l ++ [name])
    (if Path.isAbsolute p then [] else start)

def cd (args : List Text) : Run Unit := do
  let args := args.filter fun t => t ≠ ['-', 'L'] && t ≠ ['-', 'P'] && t ≠ ['-', '-']
  let p ← process
  let target := match args with
    | [] => (p.value? "HOME".toList).getD []
    | ['-'] :: _ => (p.value? "OLDPWD".toList).getD []
    | t :: _ => t
  let l := followNames p.cwd target
  if (← get).files.isDirectoryAt [] l.path then
    let p := (p.assign "OLDPWD".toList p.cwd.path).assign "PWD".toList l.path
    modifyProcess fun _ =>
      { p.exporting ["OLDPWD".toList, "PWD".toList] with cwd := l, status := 0 }
    if args.head? = some ['-'] then putLine l.path
  else failWith 2 ("can't cd to ".toList ++ target)

def assignmentOf (t : Text) : Text × Option Text :=
  match Text.cut? '=' t with
  | some (name, value) => (name, some value)
  | none => (t, none)

def declare (mark : Variable → Variable) (args : List Text) : Run Unit := do
  for t in args do
    if t ≠ ['-', 'p'] then
      let (name, value?) := assignmentOf t
      if !isName name then fault (name ++ ": bad variable name".toList)
      match value? with
      | some v => assignVariable name v
      | none => pure ()
      let p ← process
      modifyProcess fun p' => p'.put (mark ((p.find? name).getD { name, value? := none }))
  setStatus 0

def list (word : Text) (vs : List Variable) : Run Unit := do
  for v in vs.mergeSort fun v w => bytesLe (Utf8.encode v.name) (Utf8.encode w.name) do
    let written := match v.value? with
      | some t => v.name ++ '=' :: inQuotes t
      | none => v.name
    putLine (if word.isEmpty then written else word ++ ' ' :: written)
  setStatus 0

def declareLocal (args : List Text) : Run Unit := do
  if (← process).calls = 0 then fault "not in a function".toList
  for t in args do
    let (name, value?) := assignmentOf t
    if !isName name then fault (name ++ ": bad variable name".toList)
    let p ← process
    modifyProcess fun p' => { p' with hidden := (name, p.find? name) :: p'.hidden }
    match value? with
    | some v => assignVariable name v
    | none => pure ()
  setStatus 0

def unset (args : List Text) : Run Unit := do
  let functions := args.contains ['-', 'f']
  for name in args do
    if name.head? ≠ some '-' then
      let p ← process
      if functions then
        modifyProcess fun p => { p with functions := p.functions.filter fun f => f.1 ≠ name }
      else if (p.find? name).any Variable.readOnly then fault (name ++ ": is read only".toList)
      else modifyProcess fun p => p.unset name
  setStatus 0

def withOption (o : Options) (on : Bool) (c : Char) : Options :=
  match c with
  | 'e' => { o with exitOnError := on }
  | 'u' => { o with failOnUnset := on }
  | 'f' => { o with noGlob := on }
  | 'x' => { o with trace := on }
  | _ => o

def longOption? (t : Text) : Option Char :=
  match String.ofList t with
  | "errexit" => some 'e'
  | "nounset" => some 'u'
  | "noglob" => some 'f'
  | "xtrace" => some 'x'
  | _ => none

def setOptions : List Text → Run Unit
  | [] => pure ()
  | ['-', '-'] :: rest => modifyProcess fun p => { p with args := rest }
  | ['-', 'o'] :: name :: rest => do
    match longOption? name with
    | some c => modifyProcess fun p => { p with options := withOption p.options true c }
    | none => pure ()
    setOptions rest
  | ['+', 'o'] :: name :: rest => do
    match longOption? name with
    | some c => modifyProcess fun p => { p with options := withOption p.options false c }
    | none => pure ()
    setOptions rest
  | t :: rest =>
    match t with
    | '-' :: c :: cs => do
      modifyProcess fun p =>
        { p with options := (c :: cs).foldl (fun o c => withOption o true c) p.options }
      setOptions rest
    | '+' :: c :: cs => do
      modifyProcess fun p =>
        { p with options := (c :: cs).foldl (fun o c => withOption o false c) p.options }
      setOptions rest
    | _ => modifyProcess fun p => { p with args := t :: rest }

def readFields (separators : Text) : List Text → Marked → List (Text × Text)
  | [], _ => []
  | [name], m =>
    let blank (x : Char × Bool) : Bool :=
      !x.2 && separators.contains x.1 && (x.1 = ' ' || x.1 = '\t' || x.1 = '\n')
    let m := m.dropWhile blank
    let m := (m.reverse.dropWhile blank).reverse
    [(name, m.map (·.1))]
  | name :: next :: names, m =>
    let separates (x : Char × Bool) : Bool := !x.2 && separators.contains x.1
    let blank (x : Char × Bool) : Bool :=
      separates x && (x.1 = ' ' || x.1 = '\t' || x.1 = '\n')
    let m := m.dropWhile blank
    let field := m.takeWhile fun x => !separates x
    let rest := (m.drop field.length).dropWhile blank
    let rest := match rest with
      | x :: more => if separates x then more else rest
      | [] => []
    (name, field.map (·.1)) :: readFields separators (next :: names) rest

/-- A line with its backslashes resolved; what they stood before is marked. -/
def unescapeLine : Text → Marked
  | '\\' :: '\n' :: r => unescapeLine r
  | '\\' :: c :: r => (c, true) :: unescapeLine r
  | c :: r => (c, false) :: unescapeLine r
  | [] => []

def lineLength (raw : Bool) : (escaped : Bool) → Bytes → Nat
  | _, [] => 0
  | escaped, c :: r =>
    if c = 10 && !escaped then 1 else lineLength raw (!raw && c = 92 && !escaped) r + 1

def read (args : List Text) : Run Unit := do
  let raw := args.contains ['-', 'r']
  let names := args.filter fun t => t.head? ≠ some '-'
  if names.isEmpty then
    failWith 2 "arg count".toList
    return
  let input ← available 0
  let n := lineLength raw false input
  leaveUnread 0 (input.drop n)
  let line := input.take n
  let ended := line.getLast? = some 10
  let t := Utf8.decodeLossy (if ended then line.dropLast else line)
  let marked := if raw then t.map fun c => (c, false) else unescapeLine t
  for v in readFields (← separators) names marked do
    assignVariable v.1 v.2
  setStatus (if ended then 0 else 1)

def testCommand (closing : Bool) (args : List Text) : Run Unit := do
  let s ← get
  if closing && args.getLast? ≠ some [']'] then failWith 2 "missing ]".toList
  else match Condition.holds s.files s.process.cwd (if closing then args.dropLast else args) with
    | .ok holds => setStatus (if holds then 0 else 1)
    | .error e => failWith 2 e.message

def printfCommand (args : List Text) : Run Unit := do
  match args.dropWhile fun t => t = ['-', '-'] with
  | [] => failWith 2 "usage: printf format [arg ...]".toList
  | format :: args =>
    let (b, faults) := Format.printf format args
    for f in faults do
      complain f.message
    putFor "printf".toList b
    if faults.any Format.Fault.isFatal then setStatus 2
    else if !faults.isEmpty then setStatus 1

def trap (args : List Text) : Run Unit := do
  let nameOf? (t : Text) : Option Text := (Signal.ofText? t).map Signal.name
  setStatus 0
  match args with
  | [] =>
    for t in (← process).traps do
      putLine ("trap -- ".toList ++ inQuotes t.2 ++ ' ' :: t.1)
  | first :: rest =>
    let (action?, signals) :=
      if rest.isEmpty || (!first.isEmpty && first.all isDigit) then (none, args)
      else if first = ['-'] then (none, rest)
      else (some first, rest)
    for t in signals do
      match nameOf? t with
      | none => failWith 1 ("".toList ++ t ++ ": bad trap".toList)
      | some name =>
        modifyProcess fun p =>
          let others := p.traps.filter fun t => t.1 ≠ name
          { p with traps := match action? with
              | some action => (name, action) :: others
              | none => others }

def levels (args : List Text) : Nat :=
  match args with
  | t :: _ => Nat.max 1 (ofDigits (t.takeWhile isDigit))
  | [] => 1

def whereIs (name : Text) : Run (Option Text) := do
  let s ← get
  if (s.process.functions.lookup name).isSome || builtinNames.contains name then return some name
  if reserved.contains name then return some name
  if name.contains '/' then
    return (Program.at? s.files s.process.cwd name).toOption.map fun _ => name
  let search := (s.process.value? "PATH".toList).getD []
  return (Program.searchPath s.files s.process.cwd search name).toOption

def kindOf (name place : Text) : Run Text := do
  if reserved.contains name then return "a shell keyword".toList
  if ((← process).functions.lookup name).isSome then return "a shell function".toList
  if specialNames.contains name then return "a special shell builtin".toList
  if builtinNames.contains name then return "a shell builtin".toList
  return place

section

variable (self : Runner)

def wait (args : List Text) : Run Unit := do
  let own := (← process).pid
  if args.isEmpty then
    eachPending fun job => do
      if job.starter = own then
        let _ ← awaitJob self job
    setStatus 0
  for t in args do
    if t.isEmpty || !t.all isDigit then
      failWith 2 ("Illegal number: ".toList ++ t)
      return
    let pid := ofDigits t
    let s ← get
    match s.jobs.find? fun j => j.process.pid = pid && j.starter = own with
    | some job => setStatus (← awaitJob self job)
    | none => setStatus ((s.ended.lookup pid).getD 127)

def kill (args : List Text) : Run Unit := do
  let choice? : Option (Text × List Text) := match args with
    | ['-', 's'] :: t :: rest => some (t, rest)
    | ['-', '-'] :: rest => some ("TERM".toList, rest)
    | ('-' :: t) :: rest => if t.isEmpty then none else some (t, rest)
    | rest => some ("TERM".toList, rest)
  match choice? with
  | none => failWith 2 "Usage: kill [-s sigspec | -signum] pid...".toList
  | some (t, targets) =>
    if t = ['l'] then
      if targets.isEmpty then
        for n in Signal.names.tail do
          putLine n.1.toList
      for t in targets do
        let n := ofDigits t
        putLine (Signal.name (if n < 128 then n else n - 128))
    else match Signal.ofText? t with
      | none => failWith 2 ("Illegal option -".toList ++ t.take 1)
      | some signal =>
        let targets := targets.filter fun t => t ≠ ['-', '-']
        if targets.isEmpty then
          failWith 2 "Usage: kill [-s sigspec | -signum] pid...".toList
          return
        setStatus 0
        for t in targets do
          match Utility.int? t with
          | none => failWith 2 ("Illegal number: ".toList ++ t)
          | some target =>
            if !(← sendSignal self signal target) then failWith 1 "No such process".toList

/-- Carries out a built-in command. -/
def runBuiltin (name : Text) (args : List Text) : Run Unit := do
  match String.ofList name with
  | ":" | "true" => setStatus 0
  | "false" => setStatus 1
  | "echo" => putFor name (Format.echo args)
  | "printf" => printfCommand args
  | "pwd" => putLine (← process).cwd.path
  | "cd" | "chdir" => cd args
  | "test" => testCommand false args
  | "[" => testCommand true args
  | "export" =>
    if args.isEmpty || args = [['-', 'p']] then
      list "export".toList ((← process).bindings.filter Variable.exported)
    else declare (fun v => { v with exported := true }) args
  | "readonly" =>
    if args.isEmpty || args = [['-', 'p']] then
      list "readonly".toList ((← process).bindings.filter Variable.readOnly)
    else declare (fun v => { v with readOnly := true }) args
  | "local" => declareLocal args
  | "unset" => unset args
  | "set" =>
    if args.isEmpty then
      list [] ((← process).bindings.filter fun v => v.value?.isSome)
    else setOptions args
    setStatus 0
  | "shift" =>
    let n := match args with
      | t :: _ => ofDigits (t.takeWhile isDigit)
      | [] => 1
    if (← process).args.length < n then fault "can't shift that many".toList
    modifyProcess fun p => { p with args := p.args.drop n, status := 0 }
  | "read" => read args
  | "trap" => trap args
  | "wait" => wait self args
  | "kill" => kill self args
  | "eval" =>
    setStatus 0
    runScript self (Text.join [' '] args)
  | "." =>
    let s ← get
    match s.files.readText s.process.cwd (args.headD []) with
    | .ok t =>
      speaking (args.headD []) do
        tryCatch (runScript self t) fun flow =>
          match flow with
          | .leave => pure ()
          | _ => throw flow
    | .error e =>
      let name := args.headD []
      if name.contains '/' then fault (openFault false name e)
      else fault (name ++ ": not found".toList)
  | "exit" =>
    match args with
    | t :: _ =>
      if t.isEmpty || !t.all isDigit then fault ("Illegal number: ".toList ++ t)
      setStatus (ofDigits t % 256)
    | [] => pure ()
    throw .exit
  | "return" =>
    match args with
    | t :: _ => setStatus (ofDigits (t.takeWhile isDigit))
    | [] => pure ()
    throw .leave
  | "break" =>
    setStatus 0
    let depth := (← process).loops
    if depth ≠ 0 then throw (.stop (Nat.min depth (levels args)))
  | "continue" =>
    setStatus 0
    let depth := (← process).loops
    if depth ≠ 0 then throw (.next (Nat.min depth (levels args)))
  | "type" =>
    for t in args do
      match ← whereIs t with
      | some place =>
        putLine (t ++ " is ".toList ++ (← kindOf t place))
      | none =>
        putLine (t ++ ": not found".toList)
        setStatus 127
  | "umask" => if args.isEmpty then putLine "0022".toList else setStatus 0
  | _ => setStatus 0

end

end SoloCall.Shell
