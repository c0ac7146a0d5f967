import SoloCall.CommandLine.Basic
import SoloCall.Dispatch.Execute
import SoloCall.Listing
import SoloCall.Record.Extract

namespace SoloCall

namespace CommandLine

structure Report where
  code : Nat
  output : Text := []
  diagnostics : Text := []
  deriving DecidableEq, Repr

namespace Report

def good : Nat := 0
def failed : Nat := 1
def misused : Nat := 2

def brokenOff : Nat := 101

def ofChain (chain : List Text) : Report where
  code := failed
  diagnostics := "Error: ".toList ++ Text.join ": ".toList chain ++ ['\n']

end Report

def versionText : Text := "sentinel 0.1.0\n".toList

def helpText : Text :=
  Text.join ['\n'] [
    "Extract and run individual functions from source files".toList,
    [],
    "Usage: sentinel [-v] list [--lang LANG] [--json] FILE".toList,
    "       sentinel [-v] run [--lang LANG] [--json] FILE FUNCTION [ARGS]...".toList,
    "       sentinel [-v] classify FILE".toList,
    []]

def standardInput : Path := ['-']

/-- What the command line is given beside its arguments: the bytes on the standard input, and
whether the standard output shows colours. -/
structure Console where
  input : Bytes := []
  color : Bool := false

def readSource (m : Machine) (input : Bytes) (file : Path) : Except (List Text) (Text × Path) :=
  if file = standardInput then
    match Utf8.decode? input with
    | some t => .ok (t, [])
    | none => .error ["reading stdin".toList, OsError.notUtf8.message]
  else
    match m.files.readText m.cwd file with
    | .ok t => .ok (t, file)
    | .error e => .error ["reading ".toList ++ file, e.message]

def performList (m : Machine) (c : Console) (file : Path) (language? : Option Language)
    (json : Bool) : Report :=
  match readSource m c.input file with
  | .error chain => .ofChain chain
  | .ok (source, name) =>
    let records := FunctionRecord.extract (language?.getD (Language.classify name)) source
    { code := Report.good
      output := if json then Listing.recordsJson records else Listing.records c.color records }

def reportOf (c : Console) (json : Bool) : Completion → Report
  | .brokenOff => { code := Report.brokenOff }
  | .outcome o =>
    { code := if o.isSuccess then Report.good else Report.failed
      output := if json then Listing.outcomeJson o else Listing.outcome c.color o }

def Command.perform (s : Surroundings) (config : Config) (c : Console) (m : Machine) :
    Command → Report × Machine
  | .classify file =>
    ({ code := Report.good, output := (Language.classify file).name ++ ['\n'] }, m)
  | .list file language? json => (performList m c file language? json, m)
  | .run file function args language? json =>
    let r := Request.ofFile function args file
    let r := { r with language := language?.getD r.language }
    let (completion, m) := (Dispatcher.ofConfig config m.environment).execute s r m
    (reportOf c json completion, m)

/-- Does what the arguments ask for. The configuration is read before any command. -/
def perform (s : Surroundings) (directory? : Option Path) (args : List Text) (c : Console)
    (m : Machine) : Report × Machine :=
  match wish args with
  | .misuse => ({ code := Report.misused, diagnostics := helpText }, m)
  | .help => ({ code := Report.good, output := helpText }, m)
  | .version => ({ code := Report.good, output := versionText }, m)
  | .command command =>
    match Config.load directory? m.files m.cwd m.environment with
    | .error e => (.ofChain e.chain, m)
    | .ok config => command.perform s config c m

end CommandLine

end SoloCall
