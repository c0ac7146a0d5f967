import SoloCall.CommandLine.Report
import SoloCall.Shell.Start

namespace SoloCall

namespace Outside

def variableNames : List Text :=
  ["HOME".toList, "PATH".toList, "TMPDIR".toList, "XDG_CONFIG_HOME".toList,
    Config.key "SCRATCH_DIR"] ++ Config.defaults.map (·.1)

def environment : IO Environment := do
  let found ← variableNames.mapM fun name => do
    return (← IO.getEnv (String.ofList name)).map fun v => (name, v.toList)
  return found.filterMap id

/-- Where the system has the configurations of a user. A relative directory does not count. -/
def configDirectory? (env : Environment) : Option Path :=
  match (env.lookup "XDG_CONFIG_HOME".toList).filter Path.isAbsolute with
  | some d => some d
  | none => (env.lookup "HOME".toList).map fun h => Path.join h ".config".toList

def isADirectory : Nat := 21

def look (p : Path) : IO (Option Entry) := do
  try
    let contents ← IO.FS.readBinFile (String.ofList p)
    return some (.file contents.toList true)
  catch e =>
    match e with
    | .inappropriateType _ code _ =>
      return if code.toNat = isADirectory then some .directory else none
    | _ => return none

/-- Puts what there is at a path onto a machine, with the directories above it. Where there is
nothing, the same is done for the path above; `levels` bounds how far that goes. -/
def bringUpTo (m : Machine) : (levels : Nat) → Path → IO Machine
  | 0, _ => return m
  | levels + 1, p => do
    let above := (Path.parent? p).getD []
    match ← look p with
    | none => bringUpTo m levels above
    | some .directory => return { m with files := (m.files.makeDirectories m.cwd p).2 }
    | some (.file contents executable) =>
      let files := (m.files.makeDirectories m.cwd above).2
      match files.write m.cwd p contents with
      | .ok files =>
        return { m with files := (files.setExecutable m.cwd p executable).toOption.getD files }
      | .error _ => return { m with files }

def bring (m : Machine) (p : Path) : IO Machine := bringUpTo m p.length p

def namedBy (c : Config) (env : Environment) : List Path :=
  c.scratchDirectory env :: c.entries.flatMap fun v => v.2.words

partial def readAll (input : IO.FS.Stream) (soFar : ByteArray) : IO ByteArray := do
  let more ← input.read 65536
  if more.isEmpty then return soFar else readAll input (soFar ++ more)

def readsInput (args : List Text) : Bool := args.contains CommandLine.standardInput

/-- The machine with all that the arguments and the configuration name. -/
def machine (env : Environment) (args : List Text) : IO Machine := do
  let cwd := (← IO.currentDir).toString.toList
  let here := (Text.split '/' cwd).filter fun name => !name.isEmpty
  let base : Machine := {
    files := (Shell.Program.systemFiles.makeDirectories [] cwd).2
    clock := ← IO.monoNanosNow
    cwd := here
    environment := env }
  let m ← bring base (Config.userPath (configDirectory? env))
  let m ← args.foldlM bring m
  match Config.load (configDirectory? env) m.files m.cwd env with
  | .error _ => return m
  | .ok c => (namedBy c env).foldlM bring m

end Outside

end SoloCall

def main (args : List String) : IO UInt32 := do
  let args := args.map String.toList
  let env ← SoloCall.Outside.environment
  let m ← SoloCall.Outside.machine env args
  let stdout ← IO.getStdout
  let input ← if SoloCall.Outside.readsInput args then
      SoloCall.Outside.readAll (← IO.getStdin) .empty
    else pure .empty
  let console : SoloCall.CommandLine.Console := ⟨input.toList, ← stdout.isTty⟩
  let (report, _) := SoloCall.CommandLine.perform SoloCall.Shell.surroundings
    (SoloCall.Outside.configDirectory? env) args console m
  stdout.putStr (String.ofList report.output)
  stdout.flush
  (← IO.getStderr).putStr (String.ofList report.diagnostics)
  return report.code.toUInt32
