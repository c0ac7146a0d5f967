import SoloCall.Shell.Pattern
import SoloCall.Shell.Program
import SoloCall.Shell.Utility.Desk

namespace SoloCall.Shell

namespace Utility

open Work

def quoted (p : Path) : Text := '\'' :: p ++ ['\'']

def complainOf (what : String) (p : Path) (e : OsError) : Work Status := do
  complain (what.toList ++ ' ' :: quoted p ++ ": ".toList ++ e.text)
  return 1

def misused (how : Text) : Work Status := do
  complain how
  pointToHelp
  return 1

def missingOperand : Work Status := misused "missing operand".toList

def touch (args : List Text) : Work Status :=
  withArguments "acfhm" "drt" args 1 fun a => do
    if a.operands.isEmpty then return ← misused "missing file operand".toList
    each a.operands fun p => do
      let desk ← get
      if desk.files.pathExists desk.cwd p || a.has 'c' then return 0
      match ← onFiles fun fs cwd => fs.write cwd p [] with
      | none => return 0
      | some .isADirectory => complainOf "setting times of" p .notFound
      | some e => complainOf "cannot touch" p e

def stages (p : Path) : List Path :=
  (List.range p.length).filterMap (fun n =>
    if p[n]? = some '/' && 0 < n then some (p.take n) else none) ++ [p]

def mkdir (args : List Text) : Work Status :=
  withArguments "pvZ" "m" args 1 fun a => do
    if a.operands.isEmpty then return ← missingOperand
    each a.operands fun p => do
      let desk ← get
      let (error?, fs) := if a.has 'p' then desk.files.makeDirectories desk.cwd p
        else match desk.files.makeDirectory desk.cwd p with
          | .ok fs => (none, fs)
          | .error e => (some e, desk.files)
      set { desk with files := fs }
      match error? with
      | none =>
        if a.has 'v' && !desk.files.isDirectoryAt desk.cwd p then
          sayLine (desk.name ++ ": created directory ".toList ++ quoted p)
        return 0
      | some e =>
        let inTheWay (q : Path) : Bool :=
          match desk.files.stat desk.cwd q with
          | .ok (.file ..) => true
          | _ => false
        let blamed := if a.has 'p' && e = .notADirectory then (stages p).find? inTheWay else none
        complainOf "cannot create directory" (blamed.getD p) e

def namesNothing (p : Path) : Bool :=
  let (_, name) := Path.cutName p
  name = ['.'] || name = ['.', '.']

def rmdir (args : List Text) : Work Status :=
  withArguments "pv" "" args 1 fun a => do
    if a.operands.isEmpty then return ← missingOperand
    each a.operands fun p => do
      match ← onFiles fun fs cwd => fs.removeDirectory cwd p with
      | none => return 0
      | some e =>
        complain ("failed to remove ".toList ++ quoted p ++ ": ".toList ++ e.text)
        return 1

def rm (args : List Text) : Work Status :=
  withArguments "rRfvdiI" "" args 1 fun a => do
    if a.operands.isEmpty && !a.has 'f' then return ← missingOperand
    each a.operands fun p => do
      let desk ← get
      match desk.files.stat desk.cwd p with
      | .ok .directory =>
        if namesNothing p && (a.has 'r' || a.has 'R') then
          complain ("refusing to remove '.' or '..' directory: skipping ".toList ++ quoted p)
          return 1
        else if a.has 'r' || a.has 'R' then
          let (error?, fs) := desk.files.removeTree desk.cwd p
          set { desk with files := fs }
          told a "removed directory " p error?
        else if a.has 'd' then
          told a "removed directory " p (← onFiles fun fs cwd => fs.removeDirectory cwd p)
        else complainOf "cannot remove" p .isADirectory
      | .ok (.file ..) =>
        told a "removed " p (← onFiles fun fs cwd => fs.removeFile cwd p)
      | .error e =>
        if a.has 'f' && (e = .notFound || e = .notADirectory) then return 0
        else complainOf "cannot remove" p e
where
  told (a : Arguments) (what : String) (p : Path) (error? : Option OsError) : Work Status := do
    match error? with
    | some e => complainOf "cannot remove" p e
    | none =>
      if a.has 'v' then sayLine (what.toList ++ quoted p)
      return 0

/-- Where a copy of `source` goes: into a directory, or to the target itself. -/
def destination (desk : Desk) (source target : Path) : Path :=
  if desk.files.isDirectoryAt desk.cwd target then
    Path.join target (Path.cutName source).2
  else target

def complainOfTarget (what : String) (move : Bool) (source target : Path) (e : OsError) :
    Work Status :=
  if e = .notADirectory then complainOf "cannot stat" target e
  else if move then
    complainOf "cannot move" (source ++ "' to '".toList ++ target) e
  else complainOf what target e

def transfer (move recursive : Bool) (target source : Path) : Work Status := do
  let desk ← get
  let target := destination desk source target
  match desk.files.locate desk.cwd source, desk.files.stat desk.cwd source with
  | .ok l, .ok e =>
    if e.isDirectory && !recursive then
      complain ("-r not specified; omitting directory ".toList ++ quoted source)
      return 1
    else if (desk.files.locate desk.cwd target).toOption = some l then
      complain (quoted source ++ " and ".toList ++ quoted target
        ++ " are the same file".toList)
      return 1
    else match e with
      | .file contents executable =>
        match ← onFiles fun fs cwd => do
          (← fs.write cwd target contents).setExecutable cwd target executable with
        | some e => complainOfTarget "cannot create regular file" move source target e
        | none =>
          if move then
            match desk.files.locate desk.cwd target with
            | .ok t => if t ≠ l then modify fun d => { d with files := d.files.erase l }
            | .error _ => pure ()
          return 0
      | .directory =>
        let bare := Text.dropEndWhile (· = '/') target
        match desk.files.locate desk.cwd (if bare.isEmpty then target else bare) with
        | .ok t =>
          if (desk.files.get? t).any fun e => !e.isDirectory then
            complain ("cannot overwrite non-directory ".toList ++ quoted target
              ++ " with directory ".toList ++ quoted source)
            return 1
          if l.isPrefixOf t then
            complain ("cannot copy a directory, ".toList ++ quoted source
              ++ ", into itself, ".toList ++ quoted target)
            return 1
          let fs := desk.files.copyTree l t
          set { desk with files := if move then fs.eraseTree l else fs }
          return 0
        | .error e => complainOfTarget "cannot create directory" move source target e
  | _, .error e => complainOf "cannot stat" source e
  | .error e, _ => complainOf "cannot stat" source e

def targetUnfit (several : Bool) (kind : String) (target : Path) : Work Bool := do
  let desk ← get
  if !several || desk.files.isDirectoryAt desk.cwd target then return false
  let reason : OsError := match desk.files.stat desk.cwd target with
    | .ok _ => .notADirectory
    | .error e => e
  let _ ← complainOf kind target reason
  return true

/-- Copies or moves the operands into a directory, if one is named apart from them, or else all but
the last of them to the last. -/
def transferAll (move recursive : Bool) (directory? : Option Path) (operands : List Path) :
    Work Status := do
  match directory?, operands.reverse with
  | _, [] => misused "missing file operand".toList
  | some directory, sources =>
    if ← targetUnfit true "target directory" directory then return 1
    each sources.reverse (transfer move recursive directory)
  | none, [p] => misused ("missing destination file operand after ".toList ++ quoted p)
  | none, target :: sources =>
    if ← targetUnfit (sources.length > 1) "target" target then return 1
    each sources.reverse (transfer move recursive target)

def cp (args : List Text) : Work Status :=
  withArguments "abdfHilLnprsuvxPRTZ" "tS" args 1 fun a =>
    transferAll false (a.has 'r' || a.has 'R' || a.has 'a') (a.value? 't') a.operands

def mv (args : List Text) : Work Status :=
  withArguments "bfinuvTZ" "tS" args 1 fun a =>
    transferAll true true (a.value? 't') a.operands

/-- Makes a link to `source`. Files are not shared, so a link to a file is a copy of it, and a
symbolic link that leads to nothing leaves nothing behind. -/
def link (symbolic force : Bool) (target source : Path) : Work Status := do
  let desk ← get
  let target := destination desk source target
  let kind := if symbolic then "failed to create symbolic link" else "failed to create hard link"
  let seen : Path := if symbolic then Path.join (Path.cutName target).1 source else source
  match desk.files.stat desk.cwd seen with
  | .error e => if !symbolic then return ← complainOf "failed to access" source e
  | .ok .directory =>
    if !symbolic then
      complain (source ++ ": hard link not allowed for directory".toList)
      return 1
  | .ok (.file ..) => pure ()
  if desk.files.pathExists desk.cwd target && !force then
    complain (kind.toList ++ ' ' :: quoted target ++ ": File exists".toList)
    return 1
  match desk.files.locateFile desk.cwd target with
  | .error e =>
    let e := if e = .isADirectory then .notFound else e
    if symbolic then complainOf kind target e
    else complainOf kind (target ++ "' => '".toList ++ source) e
  | .ok l =>
    match desk.files.stat desk.cwd seen with
    | .ok (.file contents executable) =>
      set { desk with files := desk.files.put l (.file contents executable) }
      return 0
    | _ => return 0

def ln (args : List Text) : Work Status :=
  withArguments "bdfinrsvFLPT" "tS" args 1 fun a => do
    let make (target : Path) (sources : List Path) : Work Status :=
      each sources (link (a.has 's') (a.has 'f') target)
    match a.operands.reverse with
    | [] => misused "missing file operand".toList
    | [p] => make ['.'] [p]
    | target :: sources =>
      if ← targetUnfit (sources.length > 1) "target" target then return 1
      make target sources.reverse

def unlink (args : List Text) : Work Status := do
  match args with
  | [] => missingOperand
  | p :: _ =>
    match ← onFiles fun fs cwd => fs.removeFile cwd p with
    | none => return 0
    | some e => complainOf "cannot unlink" p e

def executableMode? (mode : Text) (now : Bool) : Option Bool :=
  if !mode.isEmpty && mode.all (fun c => isDigit c && c < '8') then
    some (ofDigits ((mode.reverse.drop 2).take 1) % 2 = 1)
  else
    (Text.split ',' mode).foldlM (fun now clause =>
      let who := clause.takeWhile fun c => ['u', 'g', 'o', 'a'].contains c
      let owner := who.isEmpty || who.contains 'u' || who.contains 'a'
      match clause.drop who.length with
      | op :: letters =>
        if !letters.all fun c => "rwxXstugo".toList.contains c then none
        else if !owner then some now
        else if op = '+' then some (now || letters.contains 'x')
        else if op = '-' then some (now && !letters.contains 'x')
        else if op = '=' then some (letters.contains 'x')
        else none
      | [] => none) now

def takesAway (t : Text) : Bool :=
  match t with
  | '-' :: c :: _ => "rwxXstugoa,+=01234567".toList.contains c
  | _ => false

def chmod (args : List Text) : Work Status :=
  withArguments "Rcfvh" "" (args.filter fun t => !takesAway t) 1 fun a => do
  match (args.filter takesAway).take 1 ++ a.operands with
  | [mode] => misused ("missing operand after ".toList ++ quoted mode)
  | mode :: p :: ps =>
    match executableMode? mode false with
    | none =>
      misused ("invalid mode: ".toList ++ quoted mode)
    | some _ =>
      each (p :: ps) fun p => do
        let desk ← get
        match desk.files.stat desk.cwd p with
        | .error e => complainOf "cannot access" p e
        | .ok .directory => return 0
        | .ok (.file _ now) =>
          match ← onFiles fun fs cwd =>
            fs.setExecutable cwd p ((executableMode? mode now).getD now) with
          | none => return 0
          | some e => complainOf "changing permissions of" p e
  | _ => missingOperand

def install (args : List Text) : Work Status :=
  withArguments "cdDpvsC" "mgotS" args 1 fun a => do
    let executable := (executableMode? ((a.value? 'm').getD "755".toList) false).getD true
    let put (target source : Path) : Work Status := do
      let desk ← get
      let target := destination desk source target
      match desk.files.stat desk.cwd source with
      | .error e => complainOf "cannot stat" source e
      | .ok .directory =>
        complain ("omitting directory ".toList ++ quoted source)
        return 1
      | .ok (.file contents _) =>
        match ← onFiles fun fs cwd => do
          (← fs.write cwd target contents).setExecutable cwd target executable with
        | some e => complainOf "cannot create regular file" target e
        | none => return 0
    match a.operands.reverse with
    | [] => misused "missing file operand".toList
    | target :: sources =>
      if a.has 'd' then
        each a.operands fun p => do
          let desk ← get
          let (error?, fs) := desk.files.makeDirectories desk.cwd p
          set { desk with files := fs }
          match error? with
          | none => return 0
          | some e => complainOf "cannot create directory" p e
      else if sources.isEmpty then
        misused ("missing destination file operand after ".toList ++ quoted target)
      else if ← targetUnfit (sources.length > 1) "target" target then return 1
      else each sources.reverse (put target)

def visible (a : Arguments) (names : List Text) : List Text :=
  let hidden := if a.has 'a' then [['.'], ['.', '.']] else []
  let shown := if a.has 'a' || a.has 'A' then names else names.filter fun n => n.head? ≠ some '.'
  let sorted := (hidden ++ shown).mergeSort fun x y => bytesLe (Utf8.encode x) (Utf8.encode y)
  if a.has 'r' then sorted.reverse else sorted

def listed (a : Arguments) (e? : Option Entry) (name : Text) : Text :=
  let isDirectory := e?.any Entry.isDirectory
  let isExecutable := match e? with
    | some (.file _ true) => true
    | _ => false
  if (a.has 'p' || a.has 'F') && isDirectory then name ++ ['/']
  else if a.has 'F' && isExecutable then name ++ ['*']
  else name

def listDirectory (a : Arguments) (p : Path) : Work Unit := do
  let desk ← get
  match desk.files.locate desk.cwd p with
  | .error _ => pure ()
  | .ok l =>
    for name in visible a (desk.files.children l) do
      sayLine (listed a (desk.files.get? (l ++ [name])) name)

def ls (args : List Text) : Work Status :=
  withArguments "abcdfghiklmnopqrstuvxABCDFGHLNQRSUXZ1" "wIT" args 2 fun a => do
    let operands := if a.operands.isEmpty then [['.']] else a.operands
    let desk ← get
    let sorted := operands.mergeSort fun x y => bytesLe (Utf8.encode x) (Utf8.encode y)
    let sorted := if a.has 'r' then sorted.reverse else sorted
    let found := sorted.filterMap fun p =>
      match desk.files.stat desk.cwd p with
      | .ok e => some (p, e)
      | .error _ => none
    let status ← each sorted fun p => do
      match desk.files.stat desk.cwd p with
      | .ok _ => return 0
      | .error e =>
        let _ ← complainOf "cannot access" p e
        return 2
    let plain := found.filter fun x => a.has 'd' || !x.2.isDirectory
    let directories := found.filter fun x => !a.has 'd' && x.2.isDirectory
    for x in plain do
      sayLine (listed a (some x.2) x.1)
    let mut first := plain.isEmpty
    for x in directories do
      if operands.length > 1 then
        if !first then sayLine []
        sayLine (x.1 ++ [':'])
      first := false
      listDirectory a x.1
    return status

def walkBelow (files : FileSystem) (l : Location) (p : Path) : List (Path × Entry) :=
  match files.get? l with
  | none => []
  | some e => (p, e) :: (files.below l).map fun x => (Path.join p (Text.join ['/'] x.1), x.2)

/-- The tests that a search makes of a path, given how far below the start it lies; none if they are
not understood. -/
def searchTests? (depth : Path → Nat) : List Text → Option (List (Path × Entry → Bool))
  | [] => some []
  | [_] => none
  | test :: value :: rest => do
    let tests ← searchTests? depth rest
    match String.ofList test with
    | "-name" =>
      let pattern := Pattern.ofMarked (value.map fun c => (c, true))
      return (fun x => pattern.accepts ((Path.pieces x.1).getLast?.getD x.1)) :: tests
    | "-type" => return (fun x => x.2.isDirectory = (value = ['d'])) :: tests
    | "-maxdepth" => return (fun x => depth x.1 ≤ ofDigits value) :: tests
    | "-mindepth" => return (fun x => ofDigits value ≤ depth x.1) :: tests
    | _ => none

def find (args : List Text) : Work Status := do
  let paths := args.takeWhile fun t => t.head? ≠ some '-'
  let tests := (args.drop paths.length).filter fun t => t ≠ "-print".toList
  match searchTests? (fun _ => 0) tests with
  | none =>
    complain ("unknown predicate ".toList ++ '\x60' :: (tests.headD []) ++ ['\''])
    return 1
  | some _ =>
    each (if paths.isEmpty then [['.']] else paths) fun p => do
      let desk ← get
      match desk.files.locate desk.cwd p with
      | .ok l =>
        if (desk.files.get? l).isNone then
          complain (quoted p ++ ": No such file or directory".toList)
          return 1
        let depth (q : Path) : Nat := (Path.steps q).length - (Path.steps p).length
        let tests := (searchTests? depth tests).getD []
        for x in walkBelow desk.files l p do
          if tests.all fun test => test x then sayLine x.1
        return 0
      | .error e =>
        complain (quoted p ++ ": ".toList ++ e.text)
        return 1

def baseName (p : Path) : Text :=
  let bare := Text.dropEndWhile (· = '/') p
  if bare.isEmpty then if p.isEmpty then [] else ['/']
  else Text.endWhile (· ≠ '/') bare

def withoutEnding (ending name : Text) : Text :=
  if ending.length < name.length && Text.startsWith ending.reverse name.reverse then
    name.take (name.length - ending.length)
  else name

def basename (args : List Text) : Work Status :=
  withArguments "az" "s" args 1 (fun a => do
    let several (ending : Text) (ps : List Path) : Work Status :=
      each ps fun p => do
        sayLine (withoutEnding ending (baseName p))
        return 0
    match a.operands with
    | [] => missingOperand
    | p :: ends =>
      if a.has 'a' || a.has 's' then several ((a.value? 's').getD []) (p :: ends)
      else match ends with
        | _ :: extra :: _ => misused ("extra operand ".toList ++ quoted extra)
        | _ => several (ends.headD []) [p]) none pointToHelp true

def dirname (args : List Text) : Work Status :=
  withArguments "z" "" args 1 fun a => do
  if a.operands.isEmpty then return ← missingOperand
  each a.operands fun p => do
    let bare := Text.dropEndWhile (· = '/') p
    let above := Text.dropEndWhile (· ≠ '/') bare
    let above := Text.dropEndWhile (· = '/') above
    sayLine (if !above.isEmpty then above
      else if Path.isAbsolute p then ['/'] else ['.'])
    return 0

/-- Shows where links lead, and nothing for what is no link; with `-f`, the path from the root. -/
def readlink (args : List Text) : Work Status :=
  withArguments "fenmqsvz" "" args 1 fun a => do
    if a.operands.isEmpty then return ← missingOperand
    each a.operands fun p => do
      let desk ← get
      match desk.files.locate desk.cwd p with
      | .ok l =>
        if !(a.has 'f' || a.has 'e' || a.has 'm') then return 1
        if a.has 'e' && (desk.files.get? l).isNone then return 1
        sayLine l.path
        return 0
      | .error _ => return 1

def which (args : List Text) : Work Status := do
  let desk ← get
  let search := (desk.environment.lookup "PATH".toList).getD defaultSearch
  let names := args.filter fun t => t ≠ ['-', 'a'] && t ≠ ['-', 's']
  if names.isEmpty then return 1
  each names fun name => do
    let found := if name.contains '/' then
        (Program.at? desk.files desk.cwd name).toOption.map fun _ => name
      else (Program.searchPath desk.files desk.cwd search name).toOption
    match found with
    | some p =>
      sayLine p
      return 0
    | none => return 1

def realpath (args : List Text) : Work Status :=
  withArguments "eLmPqsz" "" args 1 fun a => do
  if a.operands.isEmpty then return ← missingOperand
  each a.operands fun p => do
    let desk ← get
    match desk.files.locate desk.cwd p with
    | .ok l =>
      sayLine l.path
      return 0
    | .error e => do
      complain (p ++ ": ".toList ++ e.text)
      return 1

end Utility

end SoloCall.Shell
