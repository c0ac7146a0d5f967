import SoloCall.FileSystem.Operation
import SoloCall.Duration
import SoloCall.Tool

namespace SoloCall

/-- The clock counts from the start of the machine, which lies before that of any process, and
never runs backwards; `epoch` is the wall time of its zero in milliseconds. `drawn` counts the
scratch ids this process has drawn. The programs it starts find its environment. -/
structure Machine where
  files : FileSystem
  clock : Nanos
  cwd : Location := []
  environment : Environment := []
  epoch : Nat := 0
  pid : Nat := 1
  drawn : UInt64 := 0

inductive ExitStatus where
  | exited (code : Int)
  | killed
  deriving DecidableEq, Repr

/-- How the start of a program ends. A program that is unfinished at its limit has been killed,
with everything it started. -/
inductive Ending where
  | notStarted (reason : Text)
  | finished (status : ExitStatus) (output diagnostics : Bytes)
  | unfinished
  | lost (reason : Text)
  deriving DecidableEq, Repr

/-- Everything around an execution. `pass` is what happens between two of its own acts, and `device`
fails where a driver is written. `start` stands for all that is left to the system when a program
runs: it is started, its output is waited for until it ends or the limit is reached, and then it is
killed with everything it has started. -/
structure Surroundings where
  pass : Machine → Machine
  start : Invocation → (limit : Nanos) → Machine → Ending × Machine
  device : Device := .sound

namespace Nanos

def maxSeconds : Nat := Nat.pow 2 63 - 1

def isTellable (moment : Nanos) : Bool := moment / perSecond ≤ maxSeconds

end Nanos

end SoloCall
