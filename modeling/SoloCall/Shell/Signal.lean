import SoloCall.Text.Decimal

namespace SoloCall.Shell

namespace Signal

def names : List (String × Nat) := [
  ("EXIT", 0), ("HUP", 1), ("INT", 2), ("QUIT", 3), ("ILL", 4), ("TRAP", 5), ("ABRT", 6),
  ("BUS", 7), ("FPE", 8), ("KILL", 9), ("USR1", 10), ("SEGV", 11), ("USR2", 12), ("PIPE", 13),
  ("ALRM", 14), ("TERM", 15), ("STKFLT", 16), ("CHLD", 17), ("CONT", 18), ("STOP", 19),
  ("TSTP", 20), ("TTIN", 21), ("TTOU", 22), ("URG", 23), ("XCPU", 24), ("XFSZ", 25),
  ("VTALRM", 26), ("PROF", 27), ("WINCH", 28), ("IO", 29), ("PWR", 30), ("SYS", 31)]

def ofText? (t : Text) : Option Nat :=
  if !t.isEmpty && t.all isDigit then
    if ofDigits t ≤ 64 then some (ofDigits t) else none
  else
    let bare := (Text.after? "SIG".toList t).getD t
    names.findSome? fun n => if n.1.toList = bare then some n.2 else none

def name (n : Nat) : Text :=
  match names.find? fun x => x.2 = n with
  | some x => x.1.toList
  | none => decimal n

inductive Effect where
  | ends | stops | nothing
  deriving DecidableEq, Repr

def effect (n : Nat) : Effect :=
  if n = 0 || n = 17 || n = 18 || n = 23 || n = 28 then .nothing
  else if 19 ≤ n && n ≤ 22 then .stops
  else .ends

def canBeCaught (n : Nat) : Bool := n ≠ 9 && n ≠ 19

def obituary? (n : Nat) : Option String :=
  match n with
  | 1 => some "Hangup"
  | 3 => some "Quit"
  | 4 => some "Illegal instruction"
  | 5 => some "Trace/breakpoint trap"
  | 6 => some "Aborted"
  | 7 => some "Bus error"
  | 8 => some "Floating point exception"
  | 9 => some "Killed"
  | 10 => some "User defined signal 1"
  | 11 => some "Segmentation fault"
  | 12 => some "User defined signal 2"
  | 14 => some "Alarm clock"
  | 15 => some "Terminated"
  | _ => none

end Signal

end SoloCall.Shell
