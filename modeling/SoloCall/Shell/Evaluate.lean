import SoloCall.Shell.Builtin

namespace SoloCall.Shell

open Run

section

variable (self : Runner)

def openWrite (fd : Nat) (appending : Bool) (t : Text) : Run Bool := do
  let s ← get
  let devices : List (Text × Option Channel) := [
    ("/dev/null".toList, some .nowhere), ("/dev/stdout".toList, s.process.channel? 1),
    ("/dev/stderr".toList, s.process.channel? 2)]
  match devices.lookup t with
  | some c? =>
    modifyProcess fun p => p.setChannel fd c?
    return true
  | none =>
    let opened := if appending then s.files.append s.process.cwd t []
      else s.files.write s.process.cwd t []
    match opened, s.files.locate s.process.cwd t with
    | .ok fs, .ok l =>
      set { s with files := fs }
      modifyProcess fun p => p.setChannel fd (some (.file l))
      return true
    | .error e, _ => do
      complain (openFault true t e)
      return false
    | _, .error e => do
      complain (openFault true t e)
      return false

def openRead (fd : Nat) (t : Text) : Run Bool := do
  let s ← get
  if t = "/dev/null".toList then
    modifyProcess fun p => p.setChannel fd (some .nowhere)
    return true
  else if t = "/dev/stdin".toList then
    modifyProcess fun p => p.setChannel fd (s.process.channel? 0)
    return true
  else match s.files.read s.process.cwd t with
    | .ok b => do
      let n ← newSupply b
      modifyProcess fun p => p.setChannel fd (some (.supply n true))
      return true
    | .error .isADirectory =>
      modifyProcess fun p => p.setChannel fd (some .nowhere)
      return true
    | .error e => do
      complain (openFault false t e)
      return false

def redirect (r : Redirection) : Run Bool := do
  match r with
  | .read fd file => openRead fd (← expandText self file)
  | .write fd file => openWrite fd false (← expandText self file)
  | .append fd file => openWrite fd true (← expandText self file)
  | .document fd body =>
    tryCatch (do
      let n ← newSupply (Utf8.encode (← expandText self body))
      modifyProcess fun p => p.setChannel fd (some (.supply n false))
      return true) fun flow =>
        match flow with
        | .exit => return false
        | _ => throw flow
  | .copy fd source =>
    let t ← expandText self source
    if t = ['-'] then
      modifyProcess fun p => p.setChannel fd none
      return true
    else if !t.isEmpty && t.all isDigit then
      match (← process).channel? (ofDigits t) with
      | some c =>
        modifyProcess fun p => p.setChannel fd (some c)
        return true
      | none =>
        complain (t ++ ": Bad file descriptor".toList)
        return false
    else
      complain ("Syntax error: Bad fd number".toList)
      return false

def redirectAll : List Redirection → Run Bool
  | [] => return true
  | r :: rest => do if ← redirect self r then redirectAll rest else return false

def interval? (t : Text) : Option Nanos :=
  let number := t.takeWhile fun c => isDigit c || c = '.'
  let (whole, fraction) := match Text.cut? '.' number with
    | some p => p
    | none => (number, [])
  let unit? : Option Nat := match t.drop number.length with
    | [] => some 1
    | ['s'] => some 1
    | ['m'] => some 60
    | ['h'] => some 3600
    | ['d'] => some 86400
    | _ => none
  let digits := (fraction ++ List.replicate 9 '0').take 9
  if (whole ++ fraction).isEmpty || !fraction.all isDigit then none
  else unit?.map fun unit => (ofDigits whole * Nanos.perSecond + ofDigits digits) * unit

def misuse (called how : Text) (status : Status) : Run Unit := do
  emitText 2 (called ++ ": ".toList ++ how ++ "\nTry '".toList ++ called ++
    " --help' for more information.\n".toList)
  setStatus status

def sleep (called : Text) (args : List Text) : Run Unit := do
  match args.mapM interval? with
  | some [] =>
    misuse called "missing operand".toList 1
  | some times =>
    spend (times.foldl (· + ·) 0)
    settle self
    setStatus 0
  | none =>
    let bad := (args.find? fun t => (interval? t).isNone).getD []
    let how : Text := match args with
      | ('-' :: c :: _) :: _ => "invalid option -- '".toList ++ [c, '\'']
      | _ => "invalid time interval '".toList ++ bad ++ ['\'']
    misuse called how 1

def endlessLines : Nat := 200000

def yes (args : List Text) : Run Unit := do
  let line := if args.isEmpty then ['y'] else Text.join [' '] args
  match (← process).channel? 1 with
  | some (.pipe n) =>
    if n ≤ 1 then hang
    let bytes := Utf8.encode (line ++ ['\n'])
    put ((List.replicate endlessLines bytes).flatten)
  | _ => hang

def startVariables (environment : Environment) (cwd : Location) (parent : Nat) : List Variable :=
  let given := environment.filter fun v => isName v.1
  let own : List Variable := [
    { name := "PWD".toList, value? := some cwd.path
      exported := true },
    { name := "IFS".toList, value? := some [' ', '\t', '\n'] },
    { name := "OPTIND".toList, value? := some ['1'] },
    { name := "PS1".toList, value? := some ['#', ' '] },
    { name := "PS2".toList, value? := some ['>', ' '] },
    { name := "PS4".toList, value? := some ['+', ' '] },
    { name := "PPID".toList, value? := some (decimal parent) }]
  let search : List Variable :=
    if given.any fun v => v.1 = "PATH".toList then []
    else [{ name := "PATH".toList, value? := some shellSearch }]
  own ++ search ++ (given.filter fun v => !own.any fun w => w.name = v.1).map fun v =>
    { name := v.1, value? := some v.2, exported := true }

inductive ShellInput where
  | missing
  | text (t name : Text) (args : List Text)
  | file (path : Path) (args : List Text)
  | standard (args : List Text)

def shellInput (name : Text) (o : Options) : List Text → Options × ShellInput
  | [] => (o, .standard [])
  | t :: rest =>
    match t with
    | ['-', '-'] =>
      match rest with
      | [] => (o, .standard [])
      | path :: args => (o, .file path args)
    | '-' :: c :: cs =>
      let o := (c :: cs).foldl (fun o c => withOption o true c) o
      if (c :: cs).contains 'c' then
        match rest with
        | [] => (o, .missing)
        | body :: more =>
          match more with
          | [] => (o, .text body name [])
          | own :: args => (o, .text body own args)
      else if (c :: cs).contains 's' then (o, .standard rest)
      else shellInput name o rest
    | _ => (o, .file t rest)

def shellMain (args : List Text) : Run Unit := do
  let p ← process
  let (options, input) := shellInput p.name {} args
  modifyProcess fun p => { p with options }
  match input with
  | .missing =>
    emitText 2 (p.name ++ ": 0: -c requires an argument\n".toList)
    setStatus 2
  | .text t name args =>
    modifyProcess fun p => { p with name, args }
    runScript self t
  | .standard args =>
    modifyProcess fun p => { p with args }
    let b ← available 0
    leaveUnread 0 []
    runScript self (Utf8.decodeLossy b)
  | .file path args =>
    let s ← get
    match s.files.read p.cwd path with
    | .ok b =>
      modifyProcess fun p => { p with name := path, args }
      runScript self (Utf8.decodeLossy b)
    | .error e =>
      emitText 2 (p.name ++ ": 0: ".toList ++ openFault false path e ++ ['\n'])
      setStatus 2

def freshShell (pid : Nat) (name : Text) (environment : Environment) : Run Process := do
  let p ← process
  return {
    name, pid, mainPid := pid, parent := p.mainPid, cwd := p.cwd, channels := p.channels
    bindings := startVariables environment p.cwd p.mainPid
    traps := p.traps.filter fun t => t.2.isEmpty }

def environmentOptions (environment : Environment) : List Text → Environment × List Text
  | ['-', 'i'] :: rest => environmentOptions [] rest
  | ['-'] :: rest => environmentOptions [] rest
  | ['-', 'u'] :: name :: rest =>
    environmentOptions (environment.filter fun v => v.1 ≠ name) rest
  | rest => (environment, rest)

/-- Runs a program of the system. A shell runs in a process of its own, or, if it takes the `place`
of the program that was started, in the current one. -/
def runSystem (place : Bool) (environment : Environment) :
    (depth : Nat) → Program.Launch → Run Unit
  | 0, _ => setStatus 126
  | depth + 1, { program, called, args } => do
    let start (failure name : Text) (args : List Text) (environment : Environment) : Run Unit := do
      let s ← get
      let found := do
        let search := (environment.lookup "PATH".toList).getD defaultSearch
        let p ← Program.find? s.files s.process.cwd search name
        Program.launchScript? s.files s.process.cwd environment name args p
      match found with
      | .ok launch => runSystem place environment depth launch
      | .error e =>
        emitText 2 (failure ++ ": ".toList ++ e.text ++ ['\n'])
        setStatus (if e = .notFound then 127 else 126)
    let failedToRun (name : Text) : Text :=
      called ++ ": failed to run command '".toList ++ name ++ ['\'']
    match String.ofList program with
    | "sh" | "dash" | "bash" =>
      if place then
        let p ← freshShell (← process).pid called environment
        modifyProcess fun _ => p
        toEnd self (shellMain self args)
      else
        let p ← freshShell (← newPid) called environment
        asChild self p (shellMain self args)
    | "sleep" => sleep self called args
    | "yes" => yes args
    | "nohup" =>
      match args with
      | [] => misuse called "missing operand".toList 125
      | name :: args => start (failedToRun name) name args environment
    | "setsid" =>
      let short := (Path.cutName called).2
      match args.dropWhile fun t => t.head? = some '-' with
      | [] => misuse short "no command specified".toList 1
      | name :: args =>
        start (short ++ ": failed to execute ".toList ++ name) name args environment
    | "timeout" =>
      match args.dropWhile fun t => t.head? = some '-' with
      | limit :: name :: args =>
        match interval? limit with
        | none =>
          misuse called ("invalid time interval '".toList ++ limit ++ ['\'']) 125
        | some limit =>
          let s ← get
          let own := s.clock + limit
          let sooner := limit ≠ 0 && s.deadline?.all (own < ·)
          if !sooner then start (failedToRun name) name args environment
          else
            set { s with deadline? := some own }
            tryCatch (do
              start (failedToRun name) name args environment
              modify fun t => { t with deadline? := s.deadline? }) fun flow =>
                match flow with
                | .halted =>
                  modify fun t => { t with
                    deadline? := s.deadline?
                    process := { s.process with status := 124 } }
                | _ => do
                  modify fun t => { t with deadline? := s.deadline? }
                  throw flow
      | _ =>
        emitText 2 ("Try '".toList ++ called ++ " --help' for more information.\n".toList)
        setStatus 125
    | "env" =>
      let (base, args) := environmentOptions environment args
      let assigned := args.takeWhile fun t => (Text.cut? '=' t).isSome
      let environment := assigned.foldl (fun (env : Environment) t =>
        let (name, value?) := assignmentOf t
        (env.filter fun v => v.1 ≠ name) ++ [(name, value?.getD [])])
        base
      match args.drop assigned.length with
      | [] =>
        for v in environment do
          emitText 1 (v.1 ++ '=' :: v.2 ++ ['\n'])
        setStatus 0
      | name :: args =>
        start (called ++ ": '".toList ++ name ++ ['\'']) name args environment
    | _ =>
      match Utility.named? program with
      | some work => useDesk called (work args) environment
      | none => setStatus 127

def startDepth : Nat := 32

def runProgram (name : Text) (args : List Text) (environment : Environment) : Run Unit := do
  spend startCost
  let s ← get
  match Program.search? s.files s.process.cwd
      ((s.process.value? "PATH".toList).getD []) name with
  | .error .notFound => failWith 127 (name ++ ": not found".toList)
  | .error e =>
    failWith (if e = .permissionDenied && name.contains '/' then 126 else 127)
      (name ++ ": ".toList ++ e.text)
  | .ok program =>
    match Program.launchScript? s.files s.process.cwd environment name args program with
    | .ok launch => runSystem self false environment startDepth launch
    | .error .notFound => failWith 127 (name ++ ": not found".toList)
    | .error e => failWith 126 (name ++ ": ".toList ++ e.text)

def maxCalls : Nat := 1000

def callFunction (body : Command) (args : List Text) : Run Unit := do
  let outer ← process
  if outer.calls = maxCalls then
    fault ("Maximum function recursion depth (".toList ++ decimal maxCalls ++ ") reached".toList)
  let leave : Run Unit := modifyProcess fun p =>
    let restored := p.hidden.foldl (fun p (h : Text × Option Variable) =>
      match h.2 with
      | some v => p.put v
      | none => p.unset h.1) p
    { restored with
      args := outer.args, hidden := outer.hidden, loops := outer.loops, calls := outer.calls }
  modifyProcess fun p => { p with args, hidden := [], loops := 0, calls := p.calls + 1 }
  tryCatch (do
    self (.pipeline false [body])
    leave) fun flow => do
      leave
      match flow with
      | .leave => pure ()
      | _ => throw flow

def assigningFor (assigned : List (Text × Text)) (export_ : Bool) (act : Run Unit) : Run Unit := do
  let before ← process
  for a in assigned do
    assignVariable a.1 a.2
    if export_ then
      modifyProcess fun p => match p.find? a.1 with
        | some v => p.put { v with exported := true }
        | none => p
  let leave : Run Unit := modifyProcess fun p =>
    assigned.foldl (fun p a => match before.find? a.1 with
      | some v => p.put v
      | none => p.unset a.1) p
  tryCatch (do
    act
    leave) fun flow => do
      leave
      throw flow

def withoutOptions (args : List Text) : List Text :=
  args.dropWhile fun t => t = ['-', 'p'] || t = ['-', '-']

def invoke (functions : Bool) (assigned : List (Text × Text)) (name : Text) (args : List Text) :
    Run Unit := do
  let p ← process
  match if functions then p.functions.lookup name else none with
  | some body => assigningFor assigned false (callFunction self body args)
  | none =>
    if builtinNames.contains name then
      spend builtinCost
      if specialNames.contains name then
        for a in assigned do
          assignVariable a.1 a.2
        speaking name (runBuiltin self name args)
      else
        let act := speaking name (runBuiltin self name args)
        tryCatch (assigningFor assigned false act) fun flow =>
          match flow with
          | .exit => if name = "read".toList then pure () else throw flow
          | _ => throw flow
    else
      assigningFor assigned true do
        runProgram self name args (← process).environment

def traceLine (assigned : List (Text × Text)) (fields : List Text) : Text :=
  '+' :: ' ' :: Text.join [' '] (assigned.map (fun a => a.1 ++ '=' :: a.2) ++ fields) ++ ['\n']

/-- Tells what is about to be run if the shell is set to that, through the descriptors it had before
they were redirected. -/
def traceThrough (channels : List (Nat × Channel)) (assigned : List (Text × Text))
    (fields : List Text) : Run Unit := do
  let p ← process
  if p.options.trace then
    modifyProcess fun p => { p with channels := channels }
    emitText 2 (traceLine assigned fields)
    modifyProcess fun q => { q with channels := p.channels }

def runFields (assigned : List (Text × Text)) (redirections : List Redirection)
    (name : Text) (args : List Text) : Run Unit := do
  let channels := (← process).channels
  let redirected : Run Bool := do
    let done ← redirectAll self redirections
    if done then traceThrough channels assigned (name :: args)
    return done
  if name = "exec".toList then
    if !(← redirected) then
      setStatus 2
      throw .exit
    for a in assigned do
      assignVariable a.1 a.2
    setStatus 0
    match args with
    | [] => pure ()
    | program :: args =>
      modifyProcess fun p => { p with traps := p.traps.filter fun t => t.2.isEmpty }
      speaking name (runProgram self program args (← process).environment)
      throw .exit
  else
    keepingChannels do
      if !(← redirected) then
        setStatus 2
        if specialNames.contains name then throw .exit
      else if name = "command".toList then
        match args with
        | ['-', 'v'] :: names =>
          for n in names do
            match ← whereIs n with
            | some place => putLine place
            | none => setStatus 127
        | _ =>
          match withoutOptions args with
          | [] => setStatus 0
          | program :: args => invoke self false assigned program args
      else invoke self true assigned name args

def expandAssignments : List (Text × Word) → Run (List (Text × Text))
  | [] => return []
  | (name, w) :: rest => do
    let value ← expandValue self w
    return (name, value) :: (← expandAssignments rest)

def assignInOrder : List (Text × Word) → Run (List (Text × Text))
  | [] => return []
  | (name, w) :: rest => do
    let value ← expandValue self w
    assignVariable name value
    return (name, value) :: (← assignInOrder rest)

def assigners : List Text := ["export".toList, "readonly".toList, "local".toList]

/-- The fields of the words of a command, after those that are known already. What assigns is not
split if the command is one that takes assignments. -/
def expandCommand (before : List Text) : List Word → Run (List Text)
  | [] => return before
  | w :: rest => do
    let assigning := match withoutOptions (before.dropWhile (· = "command".toList)) with
      | name :: _ => assigners.contains name
      | [] => false
    match if assigning then assignment? w else none with
    | some (name, value) =>
      let field := name ++ '=' :: (← expandValue self value)
      expandCommand (before ++ [field]) rest
    | none =>
      let fields ← expandFields self w
      expandCommand (before ++ fields) rest

def runSimple (line : Nat) (assignments : List (Text × Word)) (words : List Word)
    (redirections : List Redirection) : Run Unit := do
  modifyProcess fun p => { p with line := line, outputStatus := 0 }
  let fields ← expandCommand self [] words
  match fields with
  | name :: args => runFields self (← expandAssignments self assignments) redirections name args
  | [] =>
    spend builtinCost
    let channels := (← process).channels
    keepingChannels do
      if ← redirectAll self redirections then
        traceThrough channels (← assignInOrder self assignments) []
        setStatus (← process).outputStatus
      else setStatus 2

def loopBody (body : List Statement) : Run Bool := do
  let depth := (← process).loops
  let leave : Run Unit := modifyProcess fun p => { p with loops := depth }
  modifyProcess fun p => { p with loops := depth + 1 }
  tryCatch (do
    body.forM self
    leave
    return true) fun flow => do
      leave
      match flow with
      | .stop n => if n ≤ 1 then return false else throw (.stop (n - 1))
      | .next n => if n ≤ 1 then return true else throw (.next (n - 1))
      | _ => throw flow

def runLoop (untilTrue : Bool) (condition body : List Statement) : (fuel : Nat) → Status → Run Unit
  | 0, _ => throw .halted
  | fuel + 1, last => do
    spend builtinCost
    guarded (condition.forM self)
    if decide ((← status) = 0) = untilTrue then setStatus last
    else if ← loopBody self body then runLoop untilTrue condition body fuel (← status)

def runEach (name : Text) (body : List Statement) : List Text → Run Unit
  | [] => pure ()
  | t :: rest => do
    assignVariable name t
    if ← loopBody self body then runEach name body rest

def anyMatches (t : Text) : List Word → Run Bool
  | [] => return false
  | w :: rest => do
    if (← expandPattern self w).accepts t then return true else anyMatches t rest

def runOrSucceed (body : List Statement) : Run Unit :=
  if body.isEmpty then setStatus 0 else body.forM self

def runCases (t : Text) : List (List Word × List Statement) → Run Unit
  | [] => setStatus 0
  | (patterns, body) :: rest => do
    if ← anyMatches self t patterns then runOrSucceed self body else runCases t rest

def enterLine (line : Nat) : Run Unit := modifyProcess fun p => { p with line := line }

def runCommand (fuel : Nat) : Command → Run Unit
  | .simple line assignments words redirections =>
    runSimple self line assignments words redirections
  | .group body => body.forM self
  | .subshell line body => do
    enterLine line
    inSubshell (toEnd self (body.forM self))
  | .branch condition yes no => do
    guarded (condition.forM self)
    if (← status) = 0 then yes.forM self else runOrSucceed self no
  | .loop untilTrue condition body => runLoop self untilTrue condition body fuel 0
  | .each line name words? body => do
    enterLine line
    let items ← match words? with
      | some words => expandAll self words
      | none => pure (← process).args
    if items.isEmpty then setStatus 0 else runEach self name body items
  | .choose line word cases => do
    enterLine line
    runCases self (← expandText self word) cases
  | .define name body => do
    modifyProcess fun p =>
      { p with functions := (name, body) :: p.functions.filter fun f => f.1 ≠ name, status := 0 }
  | .redirected line body redirections => do
    enterLine line
    keepingChannels do
      if ← redirectAll self redirections then self (.pipeline false [body])
      else setStatus 2

/-- Runs the commands of a pipeline. All of them start together, and the pipeline ends with the
last one to end. -/
def runPipeline (fuel : Nat) (began : Nanos) : List Command → Run Unit
  | [] => pure ()
  | [c] => do
    inSubshell (runCommand self fuel c)
  | c :: rest => do
    let n ← newPipe
    inSubshell do
      modifyProcess fun p => p.setChannel 1 (some (.pipe n))
      runCommand self fuel c
    let supply ← newSupply (← drain n)
    let ended := (← get).clock
    modify fun s => { s with clock := began }
    keepingChannels do
      modifyProcess fun p => p.setChannel 0 (some (.supply supply false))
      runPipeline fuel began rest
    modify fun s => { s with clock := Nat.max s.clock ended }

/-- Whether a failure of the commands of a pipeline counts by itself. That of other commands is one
of the commands inside. -/
def countsFailure : List Command → Bool
  | [.simple ..] | [.subshell ..] => true
  | [_] => false
  | _ => true

def checkFailure : Run Unit := do
  let p ← process
  if p.status ≠ 0 && p.options.exitOnError && !p.guarded then throw .exit

def detached : Statement → Statement × List Redirection
  | .pipeline false [.simple line assignments words redirections] =>
    (.pipeline false [.simple line assignments words []], redirections)
  | .pipeline false [.redirected _ c redirections] => (.pipeline false [c], redirections)
  | s => (s, [])

/-- Puts a statement into the background. It reads nothing, and its descriptors lead elsewhere from
the start if it redirects them. -/
def runBackground (body : Statement) : Run Unit := do
  let (body, redirections) := detached body
  keepingChannels do
    modifyProcess fun p => p.setChannel 0 (some .nowhere)
    if ← redirectAll self redirections then startJob body
    else
      let pid ← newPid
      modify fun s => { s with ended := (pid, 2) :: s.ended }
      modifyProcess fun p => { p with lastJob? := some pid, status := 0 }

def step (fuel : Nat) : Statement → Run Unit
  | .both first second => do
    guarded (self first)
    if (← status) = 0 then self second
  | .either first second => do
    guarded (self first)
    if (← status) ≠ 0 then self second
  | .background body => runBackground self body
  | .pipeline negated commands => do
    let run : Run Unit := match commands with
      | [c] => runCommand self fuel c
      | cs => do runPipeline self fuel (← get).clock cs
    if negated then
      guarded run
      setStatus (if (← status) = 0 then 1 else 0)
    else
      run
      if countsFailure commands then checkFailure

end

/-- Runs a statement; the bound limits how deep runs may lie in one another. -/
def evaluate : (fuel : Nat) → Statement → Run Unit
  | 0, _ => hang
  | fuel + 1, s => step (evaluate fuel) fuel s

end SoloCall.Shell
