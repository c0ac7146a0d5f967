import SoloCall.Shell.Script
import SoloCall.Shell.Utility.Desk

namespace SoloCall.Shell

/-- What a descriptor leads to. What is to be read is a supply, perhaps that of a file. -/
inductive Channel where
  | pipe (n : Nat)
  | supply (n : Nat) (fromFile : Bool)
  | file (l : Location)
  | nowhere
  deriving DecidableEq, Repr

structure Chunk where
  moment : Nanos
  bytes : Bytes

structure Variable where
  name : Text
  value? : Option Text
  exported : Bool := false
  readOnly : Bool := false

structure Options where
  exitOnError : Bool := false
  failOnUnset : Bool := false
  noGlob : Bool := false
  trace : Bool := false

/-- What belongs to one shell process. A subshell is a process of its own that keeps the `mainPid`
of the shell it stems from. `guarded` says that a failure is being tested for, and `loops` in how
many loops the process is. -/
structure Process where
  name : Text
  pid : Nat
  mainPid : Nat
  parent : Nat
  args : List Text := []
  cwd : Location
  bindings : List Variable := []
  functions : List (Text × Command) := []
  channels : List (Nat × Channel)
  traps : List (Text × Text) := []
  options : Options := {}
  status : Status := 0
  outputStatus : Status := 0
  lastJob? : Option Nat := none
  line : Nat := 1
  guarded : Bool := false
  loops : Nat := 0
  speaker? : Option Text := none
  calls : Nat := 0
  hidden : List (Text × Option Variable) := []

/-- A statement that runs in the background: its process as it was at the start, and the process
that started it. -/
structure Job where
  body : Statement
  starter : Nat
  process : Process
  began : Nanos

structure Session where
  files : FileSystem
  clock : Nanos
  deadline? : Option Nanos := none
  nextPid : Nat
  nextPipe : Nat := 0
  pipes : List (Nat × List Chunk) := []
  supplies : List (Nat × Bytes) := []
  jobs : List Job := []
  ended : List (Nat × Status) := []
  process : Process

/-- Why a run does not go on to the next command. `halted` is the end of all time there is. -/
inductive Flow where
  | exit
  | leave
  | stop (levels : Nat)
  | next (levels : Nat)
  | killed (pid signal : Nat)
  | halted
  deriving DecidableEq, Repr

abbrev Run := ExceptT Flow (StateM Session)

abbrev Runner := Statement → Run Unit

namespace Process

def find? (p : Process) (name : Text) : Option Variable :=
  p.bindings.find? fun v => v.name = name

def value? (p : Process) (name : Text) : Option Text := (p.find? name).bind Variable.value?

def put (p : Process) (v : Variable) : Process :=
  if (p.find? v.name).isSome then
    { p with bindings := p.bindings.map fun w => if w.name = v.name then v else w }
  else { p with bindings := p.bindings ++ [v] }

def assign (p : Process) (name value : Text) : Process :=
  match p.find? name with
  | some v => p.put { v with value? := some value }
  | none => p.put { name := name, value? := some value }

def exporting (p : Process) (names : List Text) : Process :=
  { p with bindings := p.bindings.map fun v =>
      if names.contains v.name then { v with exported := true } else v }

def unset (p : Process) (name : Text) : Process :=
  { p with bindings := p.bindings.filter fun v => v.name ≠ name }

/-- Where a variable stands in the environment of a started program: the lower numbers come first,
and of the same ones the variable that was made first. -/
def environmentPlace (name : Text) : Nat :=
  name.foldl (fun n c => n + c.toNat) (16 * (name.headD '\x00').toNat) % 39

def environment (p : Process) : Environment :=
  let exported := p.bindings.filterMap fun v =>
    if v.exported then v.value?.map fun t => (v.name, t) else none
  exported.mergeSort fun v w => environmentPlace v.1 ≤ environmentPlace w.1

def channel? (p : Process) (fd : Nat) : Option Channel := p.channels.lookup fd

def setChannel (p : Process) (fd : Nat) (c? : Option Channel) : Process :=
  let others := p.channels.filter fun x => x.1 ≠ fd
  { p with channels := match c? with
      | some c => (fd, c) :: others
      | none => others }

end Process

namespace Run

def process : Run Process := return (← get).process

def modifyProcess (f : Process → Process) : Run Unit :=
  modify fun s => { s with process := f s.process }

def setStatus (n : Status) : Run Unit := modifyProcess fun p => { p with status := n }

def status : Run Status := return (← process).status

def spend (t : Nanos) : Run Unit := do
  let s ← get
  match s.deadline? with
  | some deadline =>
    if deadline < s.clock + t then
      set { s with clock := deadline }
      throw .halted
    else set { s with clock := s.clock + t }
  | none => set { s with clock := s.clock + t }

def builtinCost : Nanos := 20000
def startCost : Nanos := 1000000

def hang {α : Type} : Run α := do
  modify fun s => { s with clock := s.deadline?.getD s.clock }
  throw .halted

def newPipe : Run Nat :=
  modifyGet fun s =>
    (s.nextPipe, { s with nextPipe := s.nextPipe + 1, pipes := (s.nextPipe, []) :: s.pipes })

def newSupply (b : Bytes) : Run Nat :=
  modifyGet fun s =>
    (s.nextPipe, { s with nextPipe := s.nextPipe + 1, supplies := (s.nextPipe, b) :: s.supplies })

def newPid : Run Nat := modifyGet fun s => (s.nextPid, { s with nextPid := s.nextPid + 1 })

def collected (chunks : List Chunk) : Bytes :=
  (chunks.reverse.mergeSort fun a b => a.moment ≤ b.moment).flatMap Chunk.bytes

def drain (n : Nat) : Run Bytes :=
  modifyGet fun s =>
    (collected ((s.pipes.lookup n).getD []),
      { s with pipes := s.pipes.filter fun p => p.1 ≠ n })

def emit (fd : Nat) (b : Bytes) : Run Bool := do
  let s ← get
  match s.process.channel? fd with
  | some (.pipe n) =>
    set { s with pipes := s.pipes.map fun (p : Nat × List Chunk) =>
      if p.1 = n then (n, ⟨s.clock, b⟩ :: p.2) else p }
    return true
  | some (.file l) =>
    match s.files.get? l with
    | some (.file contents executable) =>
      set { s with files := s.files.put l (.file (contents ++ b) executable) }
    | _ => pure ()
    return true
  | some .nowhere => return true
  | some (.supply ..) => return false
  | none => return false

def available (fd : Nat) : Run Bytes := do
  let s ← get
  match s.process.channel? fd with
  | some (.supply n _) => return (s.supplies.lookup n).getD []
  | _ => return []

/-- Leaves the given bytes to be read from a descriptor. -/
def leaveUnread (fd : Nat) (b : Bytes) : Run Unit := do
  let s ← get
  match s.process.channel? fd with
  | some (.supply n _) =>
    set { s with supplies := s.supplies.map fun (x : Nat × Bytes) => if x.1 = n then (n, b) else x }
  | _ => pure ()

def emitText (fd : Nat) (t : Text) : Run Unit := do
  let _ ← emit fd (Utf8.encode t)

/-- A message of the shell itself, with its name, the line it is at, and the built-in command that
is being carried out. -/
def complain (t : Text) : Run Unit := do
  let p ← process
  let speaker : Text := match p.speaker? with
    | some name => name ++ ": ".toList
    | none => []
  emitText 2 (p.name ++ ": ".toList ++ decimal p.line ++ ": ".toList ++ speaker ++ t ++ ['\n'])

def fault {α : Type} (t : Text) : Run α := do
  complain t
  setStatus 2
  throw .exit

def keepingChannels {α : Type} (act : Run α) : Run α := do
  let saved := (← process).channels
  let restore : Run Unit := modifyProcess fun p => { p with channels := saved }
  tryCatch (do
    let a ← act
    restore
    return a) fun flow => do
      restore
      throw flow

def speaking (name : Text) (act : Run Unit) : Run Unit := do
  let before := (← process).speaker?
  let restore : Run Unit := modifyProcess fun p => { p with speaker? := before }
  modifyProcess fun p => { p with speaker? := some name }
  tryCatch (do
    act
    restore) fun flow => do
      restore
      throw flow

def guarded (act : Run Unit) : Run Unit := do
  let before := (← process).guarded
  let restore : Run Unit := modifyProcess fun p => { p with guarded := before }
  modifyProcess fun p => { p with guarded := true }
  tryCatch (do
    act
    restore) fun flow => do
      restore
      throw flow

def useDesk (called : Text) (work : Work Status) (environment : Environment) : Run Unit := do
  let s ← get
  let input ← available 0
  let inputIsFile := match s.process.channel? 0 with
    | some (.supply _ fromFile) => fromFile
    | _ => false
  let desk : Desk := {
    name := called, files := s.files, cwd := s.process.cwd, environment, input, inputIsFile }
  let (status, desk) := work.run desk
  modify fun s => { s with files := desk.files }
  if desk.input.length < input.length then leaveUnread 0 desk.input
  for w in desk.written.reverse do
    let _ ← emit (if w.1 = .output then 1 else 2) w.2
  setStatus status

end Run

end SoloCall.Shell
