import SoloCall.Argument
import SoloCall.Dispatch.Scratch
import SoloCall.Outcome
import SoloCall.Process.Run

namespace SoloCall

structure Request where
  function : Text
  args : List Text
  file : Path
  language : Language
  deriving DecidableEq, Repr

namespace Request

def ofFile (function : Text) (args : List Text) (file : Path) : Request :=
  ⟨function, args, file, Language.classify file⟩

end Request

inductive Stage where
  | validatingInput | generatingDriver | compiling | running | parsingResult | cleaningUp
  deriving DecidableEq, Repr

namespace Stage

def all : List Stage :=
  [validatingInput, generatingDriver, compiling, running, parsingResult, cleaningUp]

def name : Stage → Text
  | validatingInput => "ValidatingInput".toList
  | generatingDriver => "GeneratingDriver".toList
  | compiling => "Compiling".toList
  | running => "Running".toList
  | parsingResult => "ParsingResult".toList
  | cleaningUp => "CleaningUp".toList

end Stage

/-- How an execution ends: with an outcome, or broken off because its deadline is a moment that
the clock cannot tell. -/
inductive Completion where
  | outcome (o : Outcome)
  | brokenOff
  deriving DecidableEq, Repr

structure Dispatcher where
  toolchain : Toolchain
  scratchDirectory : Path
  scriptLimit : Nanos := Nanos.ofSeconds Config.defaultScriptTimeout
  compileLimit : Nanos := Nanos.ofSeconds Config.defaultCompileTimeout

namespace Dispatcher

def ofConfig (c : Config) (env : Environment) : Dispatcher where
  toolchain := Toolchain.ofConfig c
  scratchDirectory := c.scratchDirectory env
  scriptLimit := Nanos.ofSeconds c.scriptTimeout
  compileLimit := Nanos.ofSeconds c.compileTimeout

variable (d : Dispatcher) (s : Surroundings)

def limitFor (l : Language) : Nanos := if l.isCompiled then d.compileLimit else d.scriptLimit

def notFound (r : Request) : Outcome := .failure ("File not found: ".toList ++ r.file)

def validate (r : Request) (m : Machine) : Except Outcome (Path × Text) :=
  if r.file.isEmpty then .error (notFound r)
  else
    let path := Path.absolute m.cwd.path r.file
    if !m.files.pathExists m.cwd path then .error (notFound r)
    else
      match m.files.readText m.cwd path with
      | .ok text => .ok (path, text)
      | .error e =>
        .error (.failure ("Failed to read ".toList ++ path ++ ": ".toList ++ e.message))

def context (r : Request) (path : Path) (text id : Text) : Driver.Context where
  language := r.language
  function := r.function
  args := Argument.formatAll r.args
  source := ⟨path, .exact⟩
  sourceText := text
  scratchId := id
  scratchDirectory := d.scratchDirectory
  toolchain := d.toolchain

/-- Draws the next scratch id. The count starts again at zero after its last number. -/
def drawId (m : Machine) : Text × Machine :=
  (scratchId (m.epoch + m.clock / 1000000) m.pid m.drawn.toNat, { m with drawn := m.drawn + 1 })

def buildAndRun (language : Language) (p : Driver.Plan) (m : Machine) :
    ScratchSet × Completion × Machine :=
  let (scratch, error?, files) := ScratchSet.materialize {} s.device m.cwd p m.files
  let m := { m with files := files }
  match error? with
  | some e =>
    (scratch, .outcome (.failure ("Failed to write driver: ".toList ++ e.message)), m)
  | none =>
    match s.runSequence p.steps (d.limitFor language) m with
    | (none, m) => (scratch, .brokenOff, m)
    | (some (.ok output), m) => (scratch, .outcome (Outcome.ofOutput output), m)
    | (some (.error e), m) => (scratch, .outcome (.failure e.message), m)

/-- What becomes of the files in the end. A set is cleaned up once there is an outcome; broken off,
an execution only lets go of it, as it does in any case. -/
def settle (scratch : ScratchSet) (cwd : Location) (files : FileSystem) : Completion → FileSystem
  | .outcome _ =>
    let (scratch, files) := scratch.cleanup cwd files
    scratch.drop cwd files
  | .brokenOff => scratch.drop cwd files

def execute (r : Request) (m : Machine) : Completion × Machine :=
  match validate r m with
  | .error failure => (.outcome failure, m)
  | .ok (path, text) =>
    let (id, m) := drawId m
    match (d.context r path text id).plan with
    | .error e => (.outcome (.failure e.message), m)
    | .ok p =>
      let (scratch, completion, m) := d.buildAndRun s r.language p m
      (completion, { m with files := settle scratch m.cwd m.files completion })

end Dispatcher

end SoloCall
