import SoloCall.FileSystem.Operation
import SoloCall.Duration
import SoloCall.Language

namespace SoloCall

abbrev Environment := List (Text × Text)

structure Config where
  entries : List (Text × Text)
  path : Path

inductive ConfigError where
  | opening (path : Path) (cause : OsError)
  | reading (path : Path) (cause : OsError)
  deriving DecidableEq, Repr

namespace ConfigError

def chain : ConfigError → List Text
  | opening path cause => ["opening config file: ".toList ++ path, cause.message]
  | reading path cause => ["reading ".toList ++ path, cause.message]

def message : ConfigError → Text
  | opening path _ => "opening config file: ".toList ++ path
  | reading path _ => "reading ".toList ++ path

end ConfigError

namespace Config

def key (name : String) : Text := "SENTINEL_".toList ++ name.toList

def defaultScriptTimeout : Nat := 25
def defaultCompileTimeout : Nat := 30

def defaults : List (Text × Text) := [
  (key "PYTHON", "python3".toList), (key "NODE", "node".toList),
  (key "TS_RUNTIME", "node".toList), (key "JAVAC", "javac".toList),
  (key "JAVA", "java".toList), (key "GO", "go".toList), (key "CC", "gcc".toList),
  (key "CXX", "g++".toList), (key "SCRIPT_TIMEOUT", decimal defaultScriptTimeout),
  (key "COMPILE_TIMEOUT", decimal defaultCompileTimeout)]

def get? (c : Config) (k : Text) : Option Text := c.entries.lookup k

def set (c : Config) (k v : Text) : Config := { c with entries := (k, v) :: c.entries }

def setAll (c : Config) (pairs : List (Text × Text)) : Config :=
  pairs.foldl (fun c p => c.set p.1 p.2) c

/-- The key and value a line of a configuration file assigns. Empty lines and comments assign
nothing, nor does a line without an equals sign. -/
def assignment? (line : Text) : Option (Text × Text) :=
  match line.trim with
  | [] => none
  | '#' :: _ => none
  | t => (Text.cut? '=' t).map fun p => (p.1.trim, p.2.trim)

def assignments (contents : Text) : List (Text × Text) :=
  (contents.split '\n').filterMap assignment?

def settings (env : Environment) : List (Text × Text) :=
  env.filter fun p => Text.startsWith (key "") p.1

/-- The defaults overlaid with the assignments of a file. A file that is not there assigns
nothing. -/
def ofFile (fs : FileSystem) (cwd : Location) (path : Path) : Except ConfigError Config :=
  let base : Config := ⟨defaults, path⟩
  if !fs.pathExists cwd path then .ok base
  else
    match fs.readText cwd path with
    | .ok contents => .ok (base.setAll (assignments contents))
    | .error e => .error (.reading path e)

/-- The user's file, in the directory that the system has for configurations, if it has one. -/
def userPath (directory? : Option Path) : Path :=
  Path.join (Path.join (directory?.getD "~/.config".toList) "sentinel".toList)
    ".sentinelrc".toList

/-- The defaults, then the user's file, then the environment. -/
def load (directory? : Option Path) (fs : FileSystem) (cwd : Location) (env : Environment) :
    Except ConfigError Config := do
  let c ← ofFile fs cwd (userPath directory?)
  return c.setAll (settings env)

def word? (c : Config) (k : Text) : Option Nat := (c.get? k).bind fun v => parseWord? v.trim

def path? (c : Config) (k : Text) : Option Path :=
  (c.get? k).filter fun v => !v.trim.isEmpty

def seconds (c : Config) (k : Text) (fallback : Nat) : Nat := (c.word? k).getD fallback

def scriptTimeout (c : Config) : Nat := c.seconds (key "SCRIPT_TIMEOUT") defaultScriptTimeout

def compileTimeout (c : Config) : Nat := c.seconds (key "COMPILE_TIMEOUT") defaultCompileTimeout

def temporary (env : Environment) : Path := (env.lookup "TMPDIR".toList).getD "/tmp".toList

def scratchDirectory (c : Config) (env : Environment) : Path :=
  (c.path? (key "SCRATCH_DIR")).getD (temporary env)

end Config

end SoloCall
