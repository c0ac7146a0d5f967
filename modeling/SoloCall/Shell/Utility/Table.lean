import SoloCall.Shell.Program
import SoloCall.Shell.Utility.Edit
import SoloCall.Shell.Utility.Expr
import SoloCall.Shell.Utility.Files
import SoloCall.Shell.Utility.Streams
import SoloCall.Shell.Utility.Test

namespace SoloCall.Shell

namespace Utility

open Work

def testComplaint (args : List Text) (f : Condition.Fault) : Text :=
  match f, args with
  | .notANumber t, _ => "invalid integer ".toList ++ quoted t
  | _, [a, b] =>
    match a with
    | ['-', _] => quoted a ++ ": unary operator expected".toList
    | _ => "missing argument after ".toList ++ quoted b
  | _, [_, b, _] => quoted b ++ ": binary operator expected".toList
  | _, _ :: b :: _ => "extra argument ".toList ++ quoted b
  | _, _ => "missing argument".toList

def test (closing : Bool) (args : List Text) : Work Status := do
  if closing && args.getLast? ≠ some [']'] then
    complain "missing ']'".toList
    return 2
  let desk ← get
  let args := if closing then args.dropLast else args
  match Condition.holds desk.files desk.cwd args with
  | .ok holds => return if holds then 0 else 1
  | .error f =>
    complain (testComplaint args f)
    return 2

def printfComplaint (f : Format.Fault) : Text :=
  match f with
  | .notANumber t => quoted t ++ ": expected a numeric value".toList
  | .incomplete t => quoted t ++ ": value not completely converted".toList
  | .outOfRange t => quoted t ++ ": Numerical result out of range".toList
  | .unknown directive => directive ++ ": invalid conversion specification".toList

def printf (args : List Text) : Work Status := do
  match args.dropWhile fun t => t = ['-', '-'] with
  | [] => missingOperand
  | format :: args =>
    let (b, faults) := Format.printf format args
    for f in faults do
      complain (printfComplaint f)
    say b
    return if faults.isEmpty then 0 else 1

/-- The programs that only read, write and work on files. -/
def table : List (String × (List Text → Work Status)) := [
  ("true", fun _ => return 0),
  ("false", fun _ => return 1),
  ("echo", fun args => do
    say (Format.echo args)
    return 0),
  ("printf", printf),
  ("pwd", fun _ => do
    sayLine (Location.path (← get).cwd)
    return 0),
  ("cat", cat), ("ls", ls), ("touch", touch), ("mkdir", mkdir), ("rmdir", rmdir), ("rm", rm),
  ("cp", cp), ("mv", mv), ("ln", ln), ("unlink", unlink), ("install", install),
  ("chmod", chmod), ("readlink", readlink), ("which", which), ("head", head), ("tail", tail),
  ("wc", wc), ("sort", sort), ("uniq", uniq), ("seq", seq), ("grep", grep false false),
  ("egrep", grep false true), ("fgrep", grep true false), ("tr", tr), ("cut", cut), ("tee", tee),
  ("dd", dd), ("tac", tac), ("rev", rev), ("sed", sed), ("expr", expr), ("find", find),
  ("test", test false), ("[", test true), ("basename", basename), ("dirname", dirname),
  ("realpath", realpath),
  ("printenv", printenv), ("sync", fun _ => return 0)]

def named? (name : Text) : Option (List Text → Work Status) := table.lookup (String.ofList name)

def starters : List String := [
  "sh", "dash", "bash", "env", "sleep", "yes", "nohup", "setsid", "timeout"]

def names : List Text := (table.map (·.1) ++ starters).map String.toList

end Utility

namespace Program

def homes : List Location := [["bin".toList], ["usr".toList, "bin".toList]]

def surroundings : List Path := [
  "/boot".toList, "/dev".toList, "/etc".toList, "/home".toList, "/lib".toList, "/media".toList,
  "/mnt".toList, "/opt".toList, "/proc".toList, "/root".toList, "/run".toList, "/sbin".toList,
  "/srv".toList, "/sys".toList, "/tmp".toList, "/usr/include".toList, "/usr/lib".toList,
  "/usr/local/bin".toList, "/usr/local/lib".toList, "/usr/local/sbin".toList,
  "/usr/sbin".toList, "/usr/share".toList, "/var/lib".toList, "/var/log".toList,
  "/var/tmp".toList]

/-- The files of a machine that nothing has been put on yet. -/
def systemFiles : FileSystem :=
  let directories := (surroundings ++ homes.map Location.path).foldl
    (fun (fs : FileSystem) p => (fs.makeDirectories [] p).2) {}
  let programs := homes.flatMap fun home => Utility.names.map fun name => home ++ [name]
  let files := programs.foldl (fun (fs : FileSystem) l =>
    fs.put l (.file (image (l.getLast?.getD [])) true)) directories
  Location.devices.foldl (fun (fs : FileSystem) l => fs.put l (.file [] false)) files

end Program

end SoloCall.Shell
