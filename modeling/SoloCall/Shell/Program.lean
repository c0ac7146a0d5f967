import SoloCall.Config

namespace SoloCall.Shell

def defaultSearch : Text := "/bin:/usr/bin".toList

def shellSearch : Text :=
  "/usr/local/sbin:/usr/local/bin:/usr/sbin:/usr/bin:/sbin:/bin".toList

inductive Program where
  | system (name : Text)
  | file (path : Path) (contents : Bytes)

namespace Program

def imageMark : Bytes := [127, 69, 76, 70, 2, 1, 1, 0, 0, 0, 0, 0, 0, 0, 0, 0]

def image (name : Text) : Bytes := imageMark ++ Utf8.encode name ++ [0]

def imageOf? (contents : Bytes) : Option Text :=
  if imageMark.isPrefixOf contents then
    let rest := contents.drop imageMark.length
    let name := rest.takeWhile (· ≠ 0)
    if name.isEmpty || name.length = rest.length then none else some (Utf8.decodeLossy name)
  else none

def at? (files : FileSystem) (cwd : Location) (p : Path) : Except OsError Program := do
  let l ← files.locate cwd p
  match files.get? l with
  | none => .error .notFound
  | some .directory => .error .permissionDenied
  | some (.file contents executable) =>
    if !executable then .error .permissionDenied
    else match imageOf? contents with
      | some name => .ok (.system name)
      | none => .ok (.file p contents)

/-- The path of the program that a name without a slash leads to: the first file in the directories
of the search path that can be executed. A file that cannot be is what a failure tells of, not one
that is not there. -/
def searchPath (files : FileSystem) (cwd : Location) (search name : Text) :
    Except OsError Path :=
  (Text.split ':' search).foldl (fun found directory =>
    match found with
    | .ok p => .ok p
    | .error before =>
      let p := if directory.isEmpty then name else directory ++ '/' :: name
      match at? files cwd p with
      | .ok _ => .ok p
      | .error .notFound | .error .notADirectory => .error before
      | .error e => .error e) (.error .notFound)

def search? (files : FileSystem) (cwd : Location) (search name : Text) :
    Except OsError Program := do
  if name.contains '/' then at? files cwd name
  else at? files cwd (← searchPath files cwd search name)

def find? (files : FileSystem) (cwd : Location) (search name : Text) :
    Except OsError Program :=
  if name.isEmpty then .error .notFound
  else if !name.contains '/' && (Utf8.encode name).length > FileSystem.maxName then
    .error .nameTooLong
  else search? files cwd search name

def interpreter? (contents : Bytes) : Option (Text × List Text) :=
  match contents with
  | 35 :: 33 :: r =>
    let line := Utf8.decodeLossy (r.takeWhile (· ≠ 10))
    let blank (c : Char) : Bool := c = ' ' || c = '\t'
    let line := Text.dropEndWhile blank (line.dropWhile blank)
    let name := line.takeWhile fun c => !blank c
    let rest := (line.drop name.length).dropWhile blank
    if name.isEmpty then none else some (name, if rest.isEmpty then [] else [rest])
  | _ => none

def maxArgument : Nat := 131071

def checkArguments (args : List Text) (environment : Environment) : Except OsError Unit :=
  if args.any (fun t => maxArgument < (Utf8.encode t).length)
      || environment.any (fun v => maxArgument < (Utf8.encode (v.1 ++ '=' :: v.2)).length) then
    .error .argumentTooLong
  else .ok ()

/-- How a program of the system is started: the name it is called by, which its messages begin with,
and its arguments. -/
structure Launch where
  program : Text
  called : Text
  args : List Text

/-- What is started for a program. For a file that names an interpreter this is the interpreter, and
the path of the file stands before the arguments. -/
def interpreted? (files : FileSystem) (cwd : Location) :
    (depth : Nat) → (called : Text) → (args : List Text) → Program → Except OsError Launch
  | _, called, args, .system name => .ok ⟨name, called, args⟩
  | 0, _, _, .file .. => .error .execFormat
  | depth + 1, _, args, .file path contents =>
    match interpreter? contents with
    | none => .error .execFormat
    | some (name, own) => do
      interpreted? files cwd depth name (own ++ path :: args) (← at? files cwd name)

def maxInterpreters : Nat := 4

def launch? (files : FileSystem) (cwd : Location) (environment : Environment) (called : Text)
    (args : List Text) (p : Program) : Except OsError Launch := do
  checkArguments (called :: args) environment
  interpreted? files cwd maxInterpreters called args p

def launchScript? (files : FileSystem) (cwd : Location) (environment : Environment) (called : Text)
    (args : List Text) (p : Program) : Except OsError Launch :=
  match launch? files cwd environment called args p, p with
  | .error .execFormat, .file path _ => .ok ⟨"sh".toList, path, path :: args⟩
  | launched, _ => launched

end Program

end SoloCall.Shell
