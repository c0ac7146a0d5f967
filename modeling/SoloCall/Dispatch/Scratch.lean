import SoloCall.Driver.Plan

namespace SoloCall

inductive FileStep where
  | makeDirectories (p : Path)
  | write (p : Path) (contents : Text)
  | removeFile (p : Path)
  | removeTree (p : Path)
  deriving DecidableEq, Repr

namespace FileStep

def path : FileStep → Path
  | makeDirectories p | write p _ | removeFile p | removeTree p => p

/-- A failed act leaves the file system as it was, but for the directories made above one that
could not be made, for what was written of a file, and for what was below a directory that could not
be removed. -/
def act (cwd : Location) (fs : FileSystem) (fault? : Option Fault) :
    FileStep → Option OsError × FileSystem
  | makeDirectories p =>
    match fault? with
    | some fault => (some fault.error, fs)
    | none => fs.makeDirectories cwd p
  | write p contents => fs.writeThrough cwd p (Utf8.encode contents) fault?
  | removeFile p => fs.orKeep (fs.removeFile cwd p)
  | removeTree p => fs.removeTree cwd p

def actAll (device : Device) (cwd : Location) :
    List FileStep → FileSystem → Option OsError × FileSystem
  | [], fs => (none, fs)
  | step :: rest, fs =>
    match step.act cwd fs (device fs step.path) with
    | (none, fs) => actAll device cwd rest fs
    | (some e, fs) => (some e, fs)

def actRegardless (cwd : Location) (steps : List FileStep) (fs : FileSystem) : FileSystem :=
  steps.foldl (fun fs step => (step.act cwd fs none).2) fs

end FileStep

def Driver.Plan.writing (p : Driver.Plan) : List FileStep :=
  p.directories.map .makeDirectories ++ p.files.map fun f => .write f.path f.contents

structure ScratchSet where
  files : List Path := []
  directories : List Path := []
  deriving DecidableEq, Repr

namespace ScratchSet

def isEmpty (s : ScratchSet) : Bool := s.files.isEmpty && s.directories.isEmpty

def paths (s : ScratchSet) : List Path := s.files ++ s.directories

def track (s : ScratchSet) (p : Driver.Plan) : ScratchSet :=
  ⟨s.files ++ p.files.map Driver.ScratchFile.path ++ p.outputs, s.directories ++ p.directories⟩

def materialize (s : ScratchSet) (device : Device) (cwd : Location) (p : Driver.Plan)
    (fs : FileSystem) : ScratchSet × Option OsError × FileSystem :=
  (s.track p, FileStep.actAll device cwd p.writing fs)

def removal (s : ScratchSet) : List FileStep :=
  s.files.map .removeFile ++ s.directories.map .removeTree

def cleanup (s : ScratchSet) (cwd : Location) (fs : FileSystem) : ScratchSet × FileSystem :=
  ({}, FileStep.actRegardless cwd s.removal fs)

/-- What is left to do for a set that is no longer used: its files are removed, then its
directories. -/
def drop (s : ScratchSet) (cwd : Location) (fs : FileSystem) : FileSystem :=
  let fs := s.files.foldl (fun fs a => (fs.orKeep (fs.removeFile cwd a)).2) fs
  s.directories.foldl (fun fs a => (fs.removeTree cwd a).2) fs

end ScratchSet

/-- Milliseconds, process and count: the count tells the ids of one process apart, and the process
those of different ones. -/
def scratchId (millis pid count : Nat) : Text :=
  decimal millis ++ '_' :: decimal pid ++ '_' :: decimal count

end SoloCall
