import SoloCall.Process.Machine
import SoloCall.Text.Blank

namespace SoloCall

inductive RunError where
  | spawn (program reason : Text)
  | exit (code? : Option Int) (diagnostic : Text)
  | timeout (limit : Nanos)
  | io (reason : Text)
  deriving DecidableEq, Repr

namespace RunError

def message : RunError → Text
  | spawn program reason =>
    "Command error: failed to start \u0060".toList ++ program ++ "\u0060: ".toList ++ reason
  | exit _ diagnostic => diagnostic
  | timeout limit => "Execution timed out after ".toList ++ Nanos.text limit
  | io reason => "Command error: ".toList ++ reason

def isTimeout : RunError → Bool
  | timeout _ => true
  | spawn .. | exit .. | io _ => false

end RunError

/-- What a failed program says for itself: its diagnostics, else its output, else how it
ended. -/
def diagnostic (status : ExitStatus) (output diagnostics : Text) : Text :=
  if !diagnostics.allBlank then diagnostics
  else if !output.allBlank then output
  else match status with
    | .exited code => "exited with code ".toList ++ signedDecimal code
    | .killed => "terminated by signal".toList

def Ending.result (program : Text) (limit : Nanos) : Ending → Except RunError Text
  | notStarted reason => .error (.spawn program reason)
  | unfinished => .error (.timeout limit)
  | lost reason => .error (.io reason)
  | finished (.exited 0) output _ => .ok (Utf8.decodeLossy output)
  | finished status output diagnostics =>
    let code? := match status with
      | .exited code => some code
      | .killed => none
    .error (.exit code?
      (diagnostic status (Utf8.decodeLossy output) (Utf8.decodeLossy diagnostics)))

namespace Surroundings

variable (s : Surroundings)

def run (inv : Invocation) (limit : Nanos) (m : Machine) : Except RunError Text × Machine :=
  let (ending, m) := s.start inv limit m
  (ending.result inv.program limit, m)

/-- Runs programs up to a deadline and stops at the first failure. Each gets the time that is
left; a timeout is told with the whole limit. -/
def runUntil (limit deadline : Nanos) :
    List Invocation → (last : Text) → Machine → Except RunError Text × Machine
  | [], last, m => (.ok last, m)
  | inv :: rest, _, m =>
    let m := s.pass m
    if deadline - m.clock = 0 then (.error (.timeout limit), m)
    else
      match s.run inv (deadline - m.clock) m with
      | (.ok output, m) => runUntil limit deadline rest output m
      | (.error e, m) => (.error (if e.isTimeout then .timeout limit else e), m)

/-- Runs programs under one limit and gives the output of the last. None if the deadline is a
moment that the clock cannot tell. -/
def runSequence (steps : List Invocation) (limit : Nanos) (m : Machine) :
    Option (Except RunError Text) × Machine :=
  let m := s.pass m
  if Nanos.isTellable (m.clock + limit) then
    let (result, m) := s.runUntil limit (m.clock + limit) steps [] m
    (some result, m)
  else (none, m)

end Surroundings

end SoloCall
