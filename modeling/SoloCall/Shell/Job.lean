import SoloCall.Shell.Expand
import SoloCall.Shell.Signal

namespace SoloCall.Shell

open Run

section

variable (self : Runner)

def runLines : (fuel : Nat) → Source → Run Unit
  | 0, _ => throw .halted
  | fuel + 1, s => do
    if s.isDone then return
    match s.next with
    | .error (line, f) =>
      modifyProcess fun p => { p with line := line }
      fault f.message
    | .ok (body, rest) =>
      body.forM self
      runLines fuel rest

def runScript (t : Text) : Run Unit := runLines self (t.length + 1) { rest := t }

def runTrap (action : Text) : Run Unit := do
  let before ← status
  runScript self action
  setStatus before

def toEnd (act : Run Unit) : Run Unit := do
  let ended (flow : Flow) : Run Unit :=
    match flow with
    | .exit | .leave | .stop _ | .next _ => pure ()
    | .killed .. | .halted => throw flow
  tryCatch act ended
  match (← process).traps.lookup "EXIT".toList with
  | some action =>
    modifyProcess fun p => { p with traps := p.traps.filter fun t => t.1 ≠ "EXIT".toList }
    if !action.isEmpty then tryCatch (runTrap self action) ended
  | none => pure ()

def asChild (start : Process) (act : Run Unit) : Run Unit := do
  let outer ← process
  modifyProcess fun _ => start
  tryCatch (do
    toEnd self act
    modifyProcess fun inner => { outer with status := inner.status }) fun flow => do
      modifyProcess fun _ => outer
      match flow with
      | .killed victim signal =>
        if victim ≠ start.pid then throw flow
        setStatus (128 + signal)
        match Signal.obituary? signal with
        | some t => emitText 2 (t.toList ++ ['\n'])
        | none => pure ()
      | _ => throw flow

def startJob (body : Statement) : Run Unit := do
  let pid ← newPid
  let s ← get
  let p := s.process
  let job : Job := {
    body
    starter := p.pid
    process := { p with pid, traps := p.traps.filter (fun t => t.2.isEmpty), guarded := false }
    began := s.clock }
  set { s with
    jobs := s.jobs ++ [job]
    process := { p with lastJob? := some pid, status := 0 } }

/-- Runs a job from its start until the given moment. The answer is its status, or none if it has
not ended by then. Time has gone on at least to where it was. -/
def runJob (job : Job) (until? : Option Nanos) : Run (Option Status) := do
  let s ← get
  set { s with
    clock := job.began
    deadline? := until?
    process := job.process
    jobs := s.jobs.filter fun j => j.process.pid ≠ job.process.pid }
  let ended? : Option Status ← tryCatch (do
    toEnd self (self job.body)
    return some (← status)) fun flow =>
      match flow with
      | .killed victim signal =>
        if victim = job.process.pid then return some (128 + signal) else throw flow
      | _ => return none
  modify fun t => { t with
    clock := Nat.max s.clock t.clock
    deadline? := s.deadline?
    process := s.process
    ended := match ended? with
      | some n => (job.process.pid, n) :: t.ended
      | none => t.ended }
  return ended?

def awaitJob (job : Job) : Run Status := do
  match ← runJob self job (← get).deadline? with
  | some n => return n
  | none => hang

def eachPending (act : Job → Run Unit) : Run Unit := do
  for job in (← get).jobs do
    if (← get).jobs.any fun j => j.process.pid = job.process.pid then act job

/-- Carries out every job that has ended by now, as if it had run beside the rest. -/
def settle : Run Unit :=
  eachPending fun job => do
    let before ← get
    match ← runJob self job (some before.clock) with
    | some _ => pure ()
    | none => set before

def killJob (job : Job) (signal : Nat) : Run Unit := do
  match ← runJob self job (some (← get).clock) with
  | some _ => pure ()
  | none => modify fun s => { s with ended := (job.process.pid, 128 + signal) :: s.ended }

def receive (signal : Nat) : Run Unit := do
  let p ← process
  match if Signal.canBeCaught signal then p.traps.lookup (Signal.name signal) else none with
  | some action => if !action.isEmpty then runTrap self action
  | none =>
    match Signal.effect signal with
    | .nothing => pure ()
    | .stops => hang
    | .ends => throw (.killed p.mainPid signal)

def sendSignal (signal : Nat) (target : Int) : Run Bool := do
  let s ← get
  let p := s.process
  if target ≤ 0 || target = p.mainPid || target = p.pid then
    if signal = 0 then return true
    if target ≤ 0 && Signal.effect signal = .ends then
      eachPending fun job => killJob self job signal
    receive self signal
    return true
  else match s.jobs.find? fun j => (j.process.pid : Int) = target with
    | some job =>
      if Signal.effect signal = .ends then killJob self job signal
      return true
    | none =>
      if target = p.parent then
        if Signal.effect signal = .ends then throw (.killed p.parent signal)
        return true
      return s.ended.any fun e => (e.1 : Int) = target

end

end SoloCall.Shell
