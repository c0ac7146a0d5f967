import SoloCall.Driver.Source
import SoloCall.Driver.Texts
import SoloCall.Tool

namespace SoloCall

namespace Driver

inductive PlanError where
  | classNotFound (method : Text)
  | unsupported (language : Language)
  | invalidPath (path : Path)
  deriving DecidableEq, Repr

def PlanError.message : PlanError → Text
  | .classNotFound method => "Could not find class for method: ".toList ++ method
  | .unsupported language => "Execution not yet supported for ".toList ++ language.name
  | .invalidPath path => "Invalid source path: ".toList ++ path

structure ScratchFile where
  path : Path
  contents : Text
  deriving DecidableEq, Repr

/-- The directories are made before the build; they and the build's outputs are removed after the
run, like the files. -/
structure Plan where
  files : List ScratchFile
  directories : List Path := []
  outputs : List Path := []
  compile? : Option Invocation := none
  run : Invocation
  deriving DecidableEq, Repr

namespace Plan

def artifacts (p : Plan) : List Path := p.files.map ScratchFile.path ++ p.outputs ++ p.directories

def steps (p : Plan) : List Invocation := p.compile?.toList ++ [p.run]

end Plan

/-- All that one plan depends on. The arguments are literals already, and the scratch id belongs
to this execution alone. -/
structure Context where
  language : Language
  function : Text
  args : List Text
  source : SourcePath
  sourceText : Text
  scratchId : Text
  scratchDirectory : Path
  toolchain : Toolchain
  deriving DecidableEq, Repr

def forwardSlashes (p : Path) : Text := p.map fun c => if c = '\\' then '/' else c

def scriptString (t : Text) : Text :=
  '"' :: t.flatMap (fun c =>
    if c = '\n' then ['\\', 'n']
    else if c = '\r' then ['\\', 'r']
    else if c = '"' || c = '\\' then ['\\', c]
    else [c]) ++ ['"']

namespace Context

variable (c : Context)

def argumentText : Text := Text.join [',', ' '] c.args

def pythonContents (place : Place) : Except PlanError Text :=
  let directory := forwardSlashes place.directory
  if isInstanceMethod c.sourceText c.function then
    match enclosingClass? c.function c.sourceText with
    | none => .error (.classNotFound c.function)
    | some className => .ok (pythonMethod.render [
        (.directory, directory), (.module, place.stem), (.className, className),
        (.function, c.function), (.arguments, c.argumentText)])
  else .ok (pythonFunction.render [
    (.directory, directory), (.module, place.stem), (.function, c.function),
    (.arguments, c.argumentText)])

def scriptPath (extension : String) : Path :=
  Path.join c.scratchDirectory ("sentinel_exec_".toList ++ c.scratchId ++ '.' :: extension.toList)

def pythonPlan (place : Place) : Except PlanError Plan := do
  let contents ← c.pythonContents place
  let path := c.scriptPath "py"
  return {
    files := [⟨path, contents⟩]
    run := (c.toolchain.python.invoke c.scratchDirectory).withArgs [path] }

def javaPlan (place : Place) : Plan :=
  let runner := "SentinelRunner_".toList ++ c.scratchId
  let runnerFile := runner ++ ".java".toList
  let classes := Path.join place.directory ("sentinel_classes_".toList ++ c.scratchId)
  { files := [⟨Path.join place.directory runnerFile, javaRunner.render [
      (.runner, runner), (.className, place.stem), (.function, c.function),
      (.arguments, c.argumentText)]⟩]
    directories := [classes]
    compile? := some ((c.toolchain.javac.invoke place.directory).withArgs
      ["-d".toList, classes, place.fileName, runnerFile])
    run := (c.toolchain.java.invoke place.directory).withArgs ["-cp".toList, classes, runner] }

def goPlan (place : Place) : Plan :=
  let file := "sentinel_runner_".toList ++ c.scratchId ++ ".go".toList
  { files := [⟨Path.join place.directory file, goRunner.render [
      (.function, c.function), (.arguments, c.argumentText)]⟩]
    run := (c.toolchain.go.invoke place.directory).withArgs ["run".toList, place.fileName, file] }

def nativePlan (compiler : Tool) (flags : List Text) (extension : String) (contents : Text)
    (place : Place) : Plan :=
  let program := Path.join place.directory ("sentinel_runner_".toList ++ c.scratchId)
  let file :=
    Path.join place.directory ("sentinel_runner_".toList ++ c.scratchId ++ '.' :: extension.toList)
  { files := [⟨file, contents⟩]
    outputs := [program]
    compile? := some
      ((compiler.invoke place.directory).withArgs (flags ++ ["-o".toList, program, file]))
    run := ⟨program, [], place.directory⟩ }

def cPlan (place : Place) : Plan :=
  c.nativePlan c.toolchain.cc [] "c"
    (cRunner.render [
      (.declaration, (forwardDeclaration? c.sourceText c.function).getD []),
      (.file, place.fileName), (.function, c.function), (.arguments, c.argumentText)])
    place

def cppPlan (place : Place) : Plan :=
  c.nativePlan c.toolchain.cxx ["-std=c++17".toList] "cpp"
    (cppRunner.render [
      (.file, place.fileName), (.function, c.function), (.arguments, c.argumentText)])
    place

def scriptPlan (tool : Tool) (place : Place) : Plan :=
  let path := c.scriptPath "js"
  { files := [⟨path, scriptRunner.render [
      (.path, scriptString (forwardSlashes c.source.text)),
      (.functionLiteral, scriptString c.function), (.arguments, c.argumentText)]⟩]
    run := (tool.invoke place.directory).withArgs [path] }

/-- The plan for one execution. The source's path is looked at first. -/
def plan : Except PlanError Plan :=
  match c.source.place? with
  | none => .error (.invalidPath c.source.text)
  | some place =>
    match c.language with
    | .python => c.pythonPlan place
    | .java => .ok (c.javaPlan place)
    | .go => .ok (c.goPlan place)
    | .c => .ok (c.cPlan place)
    | .cpp => .ok (c.cppPlan place)
    | .javascript => .ok (c.scriptPlan c.toolchain.node place)
    | .typescript => .ok (c.scriptPlan c.toolchain.tsRuntime place)
    | .unknown => .error (.unsupported .unknown)

end Context

end Driver

end SoloCall
