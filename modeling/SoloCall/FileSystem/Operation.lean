import SoloCall.FileSystem.Basic
import SoloCall.Path
import SoloCall.Text.Decimal

namespace SoloCall

inductive OsError where
  | notFound | argumentTooLong | execFormat | permissionDenied | alreadyExists | notADirectory
  | isADirectory | invalidArgument | noSpace | nameTooLong | directoryNotEmpty | inputOutput
  | nulInName | notUtf8
  deriving DecidableEq, Repr

namespace OsError

def code? : OsError → Option Nat
  | notFound => some 2
  | inputOutput => some 5
  | argumentTooLong => some 7
  | execFormat => some 8
  | permissionDenied => some 13
  | alreadyExists => some 17
  | notADirectory => some 20
  | isADirectory => some 21
  | invalidArgument => some 22
  | noSpace => some 28
  | nameTooLong => some 36
  | directoryNotEmpty => some 39
  | nulInName | notUtf8 => none

def description : OsError → String
  | notFound => "No such file or directory"
  | argumentTooLong => "Argument list too long"
  | execFormat => "Exec format error"
  | permissionDenied => "Permission denied"
  | alreadyExists => "File exists"
  | notADirectory => "Not a directory"
  | isADirectory => "Is a directory"
  | invalidArgument => "Invalid argument"
  | noSpace => "No space left on device"
  | nameTooLong => "File name too long"
  | directoryNotEmpty => "Directory not empty"
  | inputOutput => "Input/output error"
  | nulInName => "file name contained an unexpected NUL byte"
  | notUtf8 => "stream did not contain valid UTF-8"

def text (e : OsError) : Text := e.description.toList

def message (e : OsError) : Text :=
  e.text ++
    match e.code? with
    | some n => " (os error ".toList ++ decimal n ++ [')']
    | none => []

end OsError

/-- The device fails at a path. A file that was opened is left with the bytes `taken?` until then; one
that could not be opened is as it was. -/
structure Fault where
  error : OsError
  taken? : Option Nat := none
  deriving DecidableEq, Repr

abbrev Device := FileSystem → Path → Option Fault

def Device.sound : Device := fun _ _ => none

def Location.path (l : Location) : Path := '/' :: Text.join ['/'] l

def Location.nullDevice : Location := ["dev".toList, "null".toList]

def Location.zeroDevice : Location := ["dev".toList, "zero".toList]

def Location.devices : List Location := [Location.nullDevice, Location.zeroDevice]

namespace FileSystem

def maxName : Nat := 255

def maxPath : Nat := 4095

def checkPath (p : Path) : Except OsError Unit :=
  if p.contains '\x00' then .error .nulInName
  else if p.isEmpty then .error .notFound
  else if (Utf8.encode p).length > maxPath then .error .nameTooLong
  else .ok ()

/-- Goes down from a location name by name. Every place passed through has to be a directory;
the last name need not exist. -/
def walk (fs : FileSystem) : Location → List Text → Except OsError Location
  | here, [] => .ok here
  | here, name :: rest =>
    match fs.get? here with
    | none => .error .notFound
    | some (.file ..) => .error .notADirectory
    | some .directory =>
      if Path.isTrivial name then walk fs here rest
      else if name = ['.', '.'] then walk fs here.dropLast rest
      else if (Utf8.encode name).length > maxName then .error .nameTooLong
      else walk fs (here ++ [name]) rest

def locate (fs : FileSystem) (cwd : Location) (p : Path) : Except OsError Location := do
  checkPath p
  fs.walk (if Path.isAbsolute p then [] else cwd) (Text.split '/' p)

def stat (fs : FileSystem) (cwd : Location) (p : Path) : Except OsError Entry := do
  match fs.get? (← fs.locate cwd p) with
  | some e => .ok e
  | none => .error .notFound

def pathExists (fs : FileSystem) (cwd : Location) (p : Path) : Bool :=
  match fs.stat cwd p with
  | .ok _ => true
  | .error _ => false

def isDirectoryAt (fs : FileSystem) (cwd : Location) (p : Path) : Bool :=
  match fs.stat cwd p with
  | .ok e => e.isDirectory
  | .error _ => false

def read (fs : FileSystem) (cwd : Location) (p : Path) : Except OsError Bytes := do
  match ← fs.stat cwd p with
  | .directory => .error .isADirectory
  | .file contents _ => .ok contents

def readText (fs : FileSystem) (cwd : Location) (p : Path) : Except OsError Text := do
  match Utf8.decode? (← fs.read cwd p) with
  | some t => .ok t
  | none => .error .notUtf8

/-- Where a path that is to be written lies. A path that ends in a slash names no file, whatever
its last name; the directories above that have to be there all the same. -/
def locateFile (fs : FileSystem) (cwd : Location) (p : Path) : Except OsError Location := do
  checkPath p
  let (above, name) := Path.cutName p
  if p.getLast? = some '/' then
    if !name.isEmpty then
      let _ ← fs.locate cwd (above ++ ['.'])
    .error .isADirectory
  else fs.locate cwd p

def orKeep (fs : FileSystem) : Except OsError FileSystem → Option OsError × FileSystem
  | .ok fs => (none, fs)
  | .error e => (some e, fs)

def write (fs : FileSystem) (cwd : Location) (p : Path) (contents : Bytes) :
    Except OsError FileSystem := do
  let l ← fs.locateFile cwd p
  match fs.get? l with
  | some .directory => .error .isADirectory
  | some (.file _ executable) => .ok (fs.put l (.file contents executable))
  | none => .ok (fs.put l (.file contents false))

/-- Writes a file, or as much of it as the device takes. -/
def writeThrough (fs : FileSystem) (cwd : Location) (p : Path) (contents : Bytes) :
    Option Fault → Option OsError × FileSystem
  | none => orKeep fs (fs.write cwd p contents)
  | some ⟨e, none⟩ => (some e, fs)
  | some ⟨e, some taken⟩ =>
    match fs.write cwd p (contents.take taken) with
    | .ok fs => (some e, fs)
    | .error e => (some e, fs)

def makeDirectory (fs : FileSystem) (cwd : Location) (p : Path) : Except OsError FileSystem := do
  checkPath p
  let bare := Text.dropEndWhile (· = '/') p
  let l ← fs.locate cwd (if bare.isEmpty then p else bare)
  if (fs.get? l).isSome then .error .alreadyExists else .ok (fs.put l .directory)

/-- Makes a directory and those above it that are missing; `levels` bounds how many. A directory
that exists already is no error. What was made before an error stays. -/
def makeDirectoriesUpTo (cwd : Location) :
    (levels : Nat) → Path → FileSystem → Option OsError × FileSystem
  | levels, p, fs =>
    let made (fs : FileSystem) : Option OsError × FileSystem :=
      match fs.makeDirectory cwd p with
      | .ok fs => (none, fs)
      | .error e => (if fs.isDirectoryAt cwd p then none else some e, fs)
    if p.isEmpty then (none, fs)
    else
      match fs.makeDirectory cwd p with
      | .ok fs => (none, fs)
      | .error .notFound =>
        match levels, Path.parent? p with
        | levels + 1, some above =>
          match makeDirectoriesUpTo cwd levels above fs with
          | (none, fs) => made fs
          | (some e, fs) => (some e, fs)
        | _, _ => (some .notFound, fs)
      | .error e => (if fs.isDirectoryAt cwd p then none else some e, fs)

def makeDirectories (fs : FileSystem) (cwd : Location) (p : Path) : Option OsError × FileSystem :=
  makeDirectoriesUpTo cwd p.length p fs

def removeFile (fs : FileSystem) (cwd : Location) (p : Path) : Except OsError FileSystem := do
  let l ← fs.locate cwd p
  match fs.get? l with
  | none => .error .notFound
  | some .directory => .error .isADirectory
  | some (.file ..) => .ok (fs.erase l)

/-- Removes a directory that has nothing in it, which the path has to call by its own name. -/
def removeDirectory (fs : FileSystem) (cwd : Location) (p : Path) : Except OsError FileSystem := do
  let l ← fs.locate cwd p
  match fs.get? l with
  | none => .error .notFound
  | some (.file ..) => .error .notADirectory
  | some .directory =>
    let (_, name) := Path.cutName p
    if name = ['.'] then .error .invalidArgument
    else if name = ['.', '.'] || !(fs.children l).isEmpty then .error .directoryNotEmpty
    else .ok (fs.erase l)

/-- Removes everything below a directory, then the directory. A directory that cannot be removed
by this path is left, but empty. -/
def removeTree (fs : FileSystem) (cwd : Location) (p : Path) : Option OsError × FileSystem :=
  match fs.locate cwd p with
  | .error e => (some e, fs)
  | .ok l =>
    match fs.get? l with
    | none => (some .notFound, fs)
    | some (.file ..) => (some .notADirectory, fs)
    | some .directory =>
      let emptied := fs.eraseBelow l
      match emptied.removeDirectory cwd p with
      | .ok fs => (none, fs)
      | .error e => (some e, emptied)

def append (fs : FileSystem) (cwd : Location) (p : Path) (more : Bytes) :
    Except OsError FileSystem := do
  match fs.read cwd p with
  | .ok contents => fs.write cwd p (contents ++ more)
  | .error .notFound => fs.write cwd p more
  | .error e => .error e

def setExecutable (fs : FileSystem) (cwd : Location) (p : Path) (executable : Bool) :
    Except OsError FileSystem := do
  let l ← fs.locate cwd p
  match fs.get? l with
  | none => .error .notFound
  | some .directory => .ok fs
  | some (.file contents _) => .ok (fs.put l (.file contents executable))

def copyTree (fs : FileSystem) (source target : Location) : FileSystem :=
  match fs.get? source with
  | none => fs
  | some e =>
    (fs.below source).foldl (fun fs x => fs.put (target ++ x.1) x.2) (fs.put target e)

def tree (fs : FileSystem) (l : Location) : List Text :=
  ((fs.below l).map fun x =>
    Text.join ['/'] x.1 ++ if x.2.isDirectory then ['/'] else []).mergeSort Text.le

end FileSystem

end SoloCall
