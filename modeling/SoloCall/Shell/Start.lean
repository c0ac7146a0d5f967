import SoloCall.Process.Machine
import SoloCall.Shell.Evaluate

namespace SoloCall.Shell

open Run

/-- How deep runs may lie in one another; each turn of a loop counts as one run. -/
def runDepth : Nat := 4000000

def runner : Runner := evaluate runDepth

def prepare (inv : Invocation) (m : Machine) : Except Text (Program.Launch × Location) :=
  if (inv.program :: inv.cwd :: inv.args).any fun t => t.contains '\x00' then
    .error "nul byte found in provided data".toList
  else
    let prepared : Except OsError (Program.Launch × Location) := do
      let cwd ← m.files.locate m.cwd inv.cwd
      match m.files.get? cwd with
      | none => .error .notFound
      | some (.file ..) => .error .notADirectory
      | some .directory =>
        let search := (m.environment.lookup "PATH".toList).getD defaultSearch
        let program ← Program.find? m.files cwd search inv.program
        return (← Program.launch? m.files cwd m.environment inv.program inv.args program, cwd)
    match prepared with
    | .ok p => .ok p
    | .error e => .error e.message

def outputPipe : Nat := 0
def diagnosticsPipe : Nat := 1

def initial (name : Text) (cwd : Location) (limit : Nanos) (m : Machine) : Session where
  files := m.files
  clock := m.clock
  deadline? := some (m.clock + limit)
  nextPid := m.pid + 2
  nextPipe := 2
  pipes := [(outputPipe, []), (diagnosticsPipe, [])]
  process := {
    name, cwd, pid := m.pid + 1, mainPid := m.pid + 1, parent := m.pid
    channels := [(0, .nowhere), (1, .pipe outputPipe), (2, .pipe diagnosticsPipe)] }

def runMain (launch : Program.Launch) (environment : Environment) : Run ExitStatus := do
  spend startCost
  let own := (← process).pid
  tryCatch (do
    runSystem runner true environment startDepth launch
    return .exited ((← status) : Int)) fun flow =>
      match flow with
      | .killed victim _ => if victim = own then return .killed else throw flow
      | _ => throw flow

def Job.holdsOutput (j : Job) : Bool :=
  j.process.channels.any fun c => c.2 = .pipe outputPipe || c.2 = .pipe diagnosticsPipe

def finishJobs : (fuel : Nat) → Run Unit
  | 0 => pure ()
  | fuel + 1 => do
    match (← get).jobs.find? Job.holdsOutput with
    | some job =>
      let _ ← awaitJob runner job
      finishJobs fuel
    | none =>
      eachPending fun job => do
        let _ ← runJob runner job (some (← get).clock)

def stopJobs : Run Unit :=
  eachPending fun job => do
    let _ ← runJob runner job (some (← get).clock)

def manyJobs : Nat := 10000

def leave (m : Machine) (s : Session) : Machine :=
  { m with files := s.files, clock := max m.clock s.clock }

/-- How a run is seen from outside: what has not ended within the limit is stopped there. -/
def seen (limit : Nanos) (m : Machine) :
    Except Flow (ExitStatus × Bytes × Bytes) × Session → Ending × Machine
  | (.ok (status, output, diagnostics), s) =>
    if s.clock ≤ m.clock + limit then (.finished status output diagnostics, leave m s)
    else (.unfinished, leave m s)
  | (.error _, s) => (.unfinished, leave m ((stopJobs : Run Unit).run s).2)

/-- Starts a program and runs it until it and all that could write for it have ended. -/
def start (inv : Invocation) (limit : Nanos) (m : Machine) : Ending × Machine :=
  match prepare inv m with
  | .error reason => (.notStarted reason, m)
  | .ok (launch, cwd) =>
    let run : Run (ExitStatus × Bytes × Bytes) := do
      let status ← runMain launch m.environment
      finishJobs manyJobs
      return (status, ← drain outputPipe, ← drain diagnosticsPipe)
    seen limit m (run.run (initial launch.called cwd limit m))

def surroundings : Surroundings where
  pass m := m
  start := start

end SoloCall.Shell
