import SoloCall.Shell.Format
import SoloCall.Shell.Regex
import SoloCall.Shell.Utility.Desk

namespace SoloCall.Shell

namespace Utility

open Work

def eachOperand (operands : List Path) (f : Path → Bytes → Work Unit) : Work Status :=
  each (if operands.isEmpty then [['-']] else operands) fun p => do
    match ← readOperand p with
    | .ok b =>
      f p b
      return 0
    | .error e =>
      complain (p ++ ": ".toList ++ e.text)
      return 1

def shown (p : Path) : Text := if p.isEmpty then ['\'', '\''] else p

def padLeft (width : Nat) (t : Text) : Text := List.replicate (width - t.length) ' ' ++ t

def cat (args : List Text) : Work Status :=
  withArguments "benstuvAET" "" args 1 fun a => do
    let mut count := 1
    let mut status := 0
    for p in (if a.operands.isEmpty then [['-']] else a.operands) do
      match ← readOperand p with
      | .error e =>
        complain (shown p ++ ": ".toList ++ e.text)
        status := 1
      | .ok b =>
        if a.has 'n' then
          for line in byteLinesKept b do
            say (Utf8.encode (padLeft 6 (decimal count) ++ ['\t']) ++ line)
            count := count + 1
        else say b
    return status

def signedCount (t : Text) : Option Char × Nat :=
  match t with
  | '-' :: r => (some '-', ofDigits (r.takeWhile isDigit))
  | '+' :: r => (some '+', ofDigits (r.takeWhile isDigit))
  | r => (none, ofDigits (r.takeWhile isDigit))

def partHeader (first : Bool) (p : Path) : Bytes :=
  let name := if p = ['-'] then "standard input".toList else p
  Utf8.encode ((if first then [] else ['\n']) ++ "==> ".toList ++ name ++ " <==\n".toList)

def isCount (t : Text) : Bool :=
  let r := if t.head? = some '-' || t.head? = some '+' then t.tail else t
  !r.isEmpty && r.all isDigit

/-- The part of each operand that `head` or `tail` shows. A count with the given sign is one of what
is left out. -/
def parts (leavingOut : Char) (flags valued : String) (args : List Text)
    (bytes lines : (Option Char × Nat) → Bytes → Bytes) : Work Status :=
  withArguments flags valued args 1 (fun a => do
    if let some t := a.value? 's' then
      if !t.all (fun c => isDigit c || c = '.') then
        complain ("invalid number of seconds: '".toList ++ t ++ ['\''])
        return 1
    match (a.value? 'n').orElse fun _ => a.value? 'c' with
    | some t =>
      if !isCount t then
        complain ("invalid number of ".toList
          ++ (if a.has 'c' then "bytes".toList else "lines".toList) ++ ": ".toList
          ++ ['\''] ++ t ++ ['\''])
        return 1
    | none => pure ()
    let wanted := signedCount (((a.value? 'c').orElse fun _ => a.value? 'n').getD "10".toList)
    let nothing := wanted.2 = 0 && wanted.1 ≠ some leavingOut
    if nothing && leavingOut = '+' then return 0
    let show_ : Bytes → Bytes := if a.has 'c' then bytes wanted else lines wanted
    let headers := (a.operands.length > 1 || a.has 'v') && !a.has 'q'
    let mut status := 0
    let mut first := true
    for p in (if a.operands.isEmpty then [['-']] else a.operands) do
      match ← readSome (if a.has 'c' then wanted.2 else endless) p with
      | .error e =>
        if nothing && e = .isADirectory then
          if headers then say (partHeader first p)
          first := false
          continue
        let verb := if e = .isADirectory then "error reading " else "cannot open "
        let ending := if e = .isADirectory then ": " else " for reading: "
        complain (verb.toList ++ '\'' :: p ++ '\'' :: ending.toList
          ++ e.text)
        status := 1
      | .ok b =>
        if headers then say (partHeader first p)
        first := false
        say (show_ b)
    return status) (some 'n')

def head (args : List Text) : Work Status :=
  parts '-' "qvz" "cn" args
    (fun c b => if c.1 = some '-' then b.take (b.length - c.2) else b.take c.2)
    (fun c b =>
      let ls := byteLinesKept b
      (if c.1 = some '-' then ls.take (ls.length - c.2) else ls.take c.2).flatten)

def tail (args : List Text) : Work Status :=
  parts '+' "fFqvz" "cns" args
    (fun c b => if c.1 = some '+' then b.drop (c.2 - 1) else b.drop (b.length - c.2))
    (fun c b =>
      let ls := byteLinesKept b
      (if c.1 = some '+' then ls.drop (c.2 - 1) else ls.drop (ls.length - c.2)).flatten)

def wordCount (b : Bytes) : Nat :=
  let blank (c : UInt8) : Bool := c = 32 || (9 ≤ c && c ≤ 13)
  (b.foldl (fun (s : Nat × Bool) c =>
    if blank c then (s.1, false) else if s.2 then s else (s.1 + 1, true)) (0, false)).1

def counts (a : Arguments) (b : Bytes) : List Nat :=
  let all := !(a.has 'l' || a.has 'w' || a.has 'c' || a.has 'm')
  (if a.has 'l' || all then [b.count 10] else [])
    ++ (if a.has 'w' || all then [wordCount b] else [])
    ++ (if a.has 'm' then [b.length] else [])
    ++ (if a.has 'c' || all then [b.length] else [])

def wc (args : List Text) : Work Status :=
  withArguments "clLmw" "" args 1 fun a => do
    let mut found : List (Path × Except OsError Bytes) := []
    for p in (if a.operands.isEmpty then [['-']] else a.operands) do
      found := found ++ [(p, ← readOperand p)]
    let isDirectory (r : Except OsError Bytes) : Bool :=
      match r with
      | .error .isADirectory => true
      | _ => false
    let contents (r : Except OsError Bytes) : Bytes := r.toOption.getD []
    let size := (found.map fun f => (contents f.2).length).foldl (· + ·) 0
    let inputIsFile := (← get).inputIsFile
    let width := if found.length ≤ 1 && (counts a []).length = 1 then 1
      else if found.any fun f => (f.1 = ['-'] && !inputIsFile) || isDirectory f.2 then 7
      else (decimal size).length
    let line (ns : List Nat) (name : Text) : Text :=
      Text.join [' '] (ns.map fun n => padLeft width (decimal n))
        ++ if name.isEmpty then [] else ' ' :: name
    let status ← each found fun f => do
      let failure? := match f.2 with
        | .error e => some e
        | .ok _ => none
      match failure? with
      | some e => complain (f.1 ++ ": ".toList ++ e.text)
      | none => pure ()
      if failure?.isNone || isDirectory f.2 then
        sayLine (line (counts a (contents f.2)) (if a.operands.isEmpty then [] else f.1))
      return if failure?.isSome then 1 else 0
    if a.operands.length > 1 then
      let zeros := (counts a []).map fun _ => 0
      let sums := found.foldl (fun sums f => List.zipWith (· + ·) sums (counts a (contents f.2)))
        zeros
      sayLine (line sums "total".toList)
    return status

def leadingNumber (b : Bytes) : Int :=
  let t := (b.dropWhile fun c => c = 32 || c = 9).map fun c => Char.ofNat c.toNat
  match t with
  | '-' :: r => -(ofDigits (r.takeWhile isDigit) : Int)
  | r => ofDigits (r.takeWhile isDigit)

def sort (args : List Text) : Work Status :=
  withArguments "bcCdfghimMnrRsuVz" "koStTy" args 2 fun a => do
    if let some t := a.value? 't' then
      if t.length > 1 then
        complain ("multi-character tab '".toList ++ t ++ ['\''])
        return 2
    let mut lines : List Bytes := []
    for p in (if a.operands.isEmpty then [['-']] else a.operands) do
      match ← readOperand p with
      | .error e =>
        let what := if e = .isADirectory then "read failed: " else "cannot read: "
        complain (what.toList ++ p ++ ": ".toList ++ e.text)
        return 2
      | .ok b => lines := lines ++ byteLines b
    let key (line : Bytes) : Bytes :=
      match a.value? 'k' with
      | none => line
      | some k =>
        let n := ofDigits (k.takeWhile isDigit) - 1
        let separator := ((a.value? 't').bind List.head?).getD ' '
        let fields := (Text.split separator (Utf8.decodeLossy line)).filter fun f =>
          a.has 't' || !f.isEmpty
        Utf8.encode (Text.join [separator] (fields.drop n))
    let fold (b : Bytes) : Bytes :=
      if a.has 'f' then b.map fun c => if 97 ≤ c && c ≤ 122 then c - 32 else c else b
    let before (x y : Bytes) : Bool :=
      if a.has 'n' then leadingNumber (key x) < leadingNumber (key y)
      else bytesLe (fold (key x)) (fold (key y)) && fold (key x) ≠ fold (key y)
    let same (x y : Bytes) : Bool := !before x y && !before y x
    let le (x y : Bytes) : Bool :=
      if same x y then a.has 's' || a.has 'u' || (if a.has 'r' then bytesLe y x else bytesLe x y)
      else if a.has 'r' then before y x else before x y
    let sorted := lines.mergeSort le
    let kept := if a.has 'u' then
        (sorted.foldl (fun (kept : List Bytes) line =>
          match kept with
          | last :: _ => if same last line then kept else line :: kept
          | [] => [line]) []).reverse
      else sorted
    let written := kept.flatMap fun l => l ++ [10]
    match a.value? 'o' with
    | none =>
      say written
      return 0
    | some p =>
      match ← onFiles fun fs cwd => fs.write cwd p written with
      | none => return 0
      | some e =>
        complain ("open failed: ".toList ++ p ++ ": ".toList ++ e.text)
        return 2

def runs (lines : List Bytes) : List (Bytes × Nat) :=
  lines.foldr (fun line rest =>
    match rest with
    | (next, n) :: more => if next = line then (next, n + 1) :: more else (line, 1) :: rest
    | [] => [(line, 1)]) []

def uniq (args : List Text) : Work Status :=
  withArguments "Dcdiuz" "fsw" args 1 fun a =>
    eachOperand (a.operands.take 1) fun _ b =>
      for r in runs (byteLines b) do
        if (a.has 'd' && r.2 = 1) || (a.has 'u' && r.2 > 1) then continue
        if a.has 'c' then say (Utf8.encode (padLeft 7 (decimal r.2) ++ [' ']))
        say (r.1 ++ [10])

def int? (t : Text) : Option Int :=
  match t with
  | '-' :: r => if !r.isEmpty && r.all isDigit then some (-(ofDigits r : Int)) else none
  | r => if !r.isEmpty && r.all isDigit then some (ofDigits r) else none

def range (first step last : Int) : List Int :=
  if step = 0 then []
  else
    let n := if 0 < step then (last - first).fdiv step + 1 else (first - last).fdiv (-step) + 1
    (List.range n.toNat).map fun (i : Nat) => first + i * step

def numerals (even : Bool) (ns : List Int) : List Text :=
  let ts := ns.map signedDecimal
  let width := (ts.map List.length).foldl Nat.max 0
  if even then
    ns.map fun n =>
      let digits := decimal n.natAbs
      let sign : Text := if n < 0 then ['-'] else []
      sign ++ List.replicate (width - sign.length - digits.length) '0' ++ digits
  else ts

def seqOf (separator : Text) (even : Bool) : List Text → Work Status
  | ['-', 's'] :: s :: rest => seqOf s even rest
  | ['-', 'w'] :: rest => seqOf separator true rest
  | ('-' :: 's' :: s) :: rest => seqOf s even rest
  | args => do
    let ns ← match args.mapM int? with
      | some [last] => pure (some (range 1 1 last))
      | some [first, last] => pure (some (range first 1 last))
      | some [first, step, last] => pure (some (range first step last))
      | _ => pure none
    match ns with
    | some ns =>
      if !ns.isEmpty then sayLine (Text.join separator (numerals even ns))
      return 0
    | none =>
      complain (match args.find? fun t => (int? t).isNone with
        | some t => "invalid floating point argument: '".toList ++ t ++ ['\'']
        | none => "missing operand".toList)
      pointToHelp
      return 1

def seq (args : List Text) : Work Status := seqOf ['\n'] false args

/-- What `grep` looks for on a line: the first place where one of its patterns is found. -/
structure Search where
  patterns : List Regex
  ignoreCase : Bool
  wholeLine : Bool
  wholeWord : Bool

namespace Search

def isWordChar (c : Char) : Bool := c.isAlphanum || c = '_'

def find? (s : Search) (before rest : Text) : Option (Regex.Point × Regex.Point) :=
  let found := s.patterns.filterMap fun r => Regex.find? r before rest
  found.foldl (fun best p =>
    match best with
    | none => some p
    | some b =>
      if b.1.before.length < p.1.before.length then best
      else if p.1.before.length < b.1.before.length then some p
      else if p.2.rest.length < b.2.rest.length then some p else best) none

def folded (s : Search) (line : Text) : Text :=
  if s.ignoreCase then line.map Char.toLower else line

def fits (s : Search) (m : Regex.Point × Regex.Point) : Bool :=
  (!s.wholeLine || (m.1.before.isEmpty && m.2.rest.isEmpty))
    && (!s.wholeWord
      || (!(m.1.before.head?.any isWordChar) && !(m.2.rest.head?.any isWordChar)))

def selects (s : Search) (line : Text) : Bool :=
  let line := s.folded line
  if s.wholeLine then
    s.patterns.any fun r => (Regex.ends r ⟨[], line, []⟩).any fun p => p.rest.isEmpty
  else if s.wholeWord then
    (List.range (line.length + 1)).any fun i =>
      s.patterns.any fun r =>
        let start : Regex.Point := ⟨(line.take i).reverse, line.drop i, []⟩
        (Regex.ends r start).any fun p => s.fits (start, p)
  else (s.find? [] line).isSome

def matchedParts (s : Search) : (fuel : Nat) → (before rest : Text) → List Text
  | 0, _, _ => []
  | fuel + 1, before, rest =>
    match s.find? before rest with
    | none => []
    | some (p, q) =>
      let part := p.rest.take (p.rest.length - q.rest.length)
      if part.isEmpty then
        match q.rest with
        | [] => []
        | c :: r => matchedParts s fuel (c :: q.before) r
      else part :: matchedParts s fuel q.before q.rest

end Search

def searchPatterns? (a : Arguments) (t : Text) : Option (List Regex) :=
  (Text.split '\n' t).mapM fun line =>
    let line := if a.has 'i' then line.map Char.toLower else line
    if a.has 'F' then some (Regex.ofText line) else Regex.parse? (a.has 'E') line

def grepUsage : Work Unit := do
  note ("Usage: ".toList ++ (← get).shortName ++ " [OPTION]... PATTERNS [FILE]...".toList)
  note ("Try '".toList ++ (← get).shortName ++ " --help' for more information.".toList)

def grep (fixed extended : Bool) (args : List Text) : Work Status :=
  withArguments "EFGHILPTUVZabchilnoqrRsuvwxyz" "ABCDXdefm" args 2 (fun a => do
    let a := if fixed then { a with options := ('F', []) :: a.options } else a
    let a := if extended then { a with options := ('E', []) :: a.options } else a
    let (pattern?, operands) := match a.values 'e' with
      | [] => (a.operands.head?, a.operands.tail)
      | es => (some (Text.join ['\n'] es), a.operands)
    match pattern? with
    | none =>
      grepUsage
      return 2
    | some pattern =>
      match searchPatterns? a pattern with
      | none =>
        complain "Unmatched ( or \\(".toList
        return 2
      | some patterns =>
        let search : Search := ⟨patterns, a.has 'i', a.has 'x', a.has 'w'⟩
        let named := (operands.length > 1 || a.has 'H') && !a.has 'h'
        let mut found := false
        let mut failed := false
        for p in (if operands.isEmpty then [['-']] else operands) do
          match ← readOperand p with
          | .error e =>
            if !a.has 's' then complain (p ++ ": ".toList ++ e.text)
            failed := true
          | .ok b =>
            let label := if named then p ++ [':'] else []
            let lines := (byteLines b).zipIdx.filter fun l =>
              search.selects (Utf8.decodeLossy l.1) != a.has 'v'
            let lines := match a.value? 'm' with
              | some n => lines.take (ofDigits n)
              | none => lines
            if !lines.isEmpty then found := true
            if a.has 'q' then pure ()
            else if a.has 'l' then
              if !lines.isEmpty then sayLine p
            else if a.has 'c' then sayLine (label ++ decimal lines.length)
            else
              for l in lines do
                let label := if a.has 'n' then label ++ decimal (l.2 + 1) ++ [':'] else label
                if a.has 'o' then
                  let line := Utf8.decodeLossy l.1
                  for part in search.matchedParts (line.length + 1) [] line do
                    sayLine (label ++ part)
                else say (Utf8.encode label ++ l.1 ++ [10])
        return if failed && !(found && a.has 'q') then 2 else if found then 0 else 1)
    (some 'm') grepUsage

/-- The bytes of a set that `tr` is given: ranges, classes and escapes. -/
def byteSet : (skip : Nat) → Text → List UInt8
  | _, [] => []
  | skip + 1, _ :: r => byteSet skip r
  | 0, c :: r =>
    let ranged (low : UInt8) (taken : Nat) (after : Text) : List UInt8 :=
      match after with
      | '-' :: d :: _ =>
        let high := ((Utf8.encodeChar d).head?.getD 0)
        (List.range (high.toNat + 1 - low.toNat)).map (fun i => low + i.toUInt8)
          ++ byteSet (taken + 2) r
      | _ => low :: byteSet taken r
    if c = '\\' then
      let (b, n) := Format.escape r
      ranged b n (r.drop n)
    else if c = '[' && r.head? = some ':' then
      let name := r.tail.takeWhile (· ≠ ':')
      let ranges := Pattern.classRanges name
      ranges.flatMap (fun p =>
        (List.range (p.2.toNat + 1 - p.1.toNat)).map fun i => (p.1.toNat + i).toUInt8)
        ++ byteSet (name.length + 3) r
    else
      match Utf8.encodeChar c with
      | [b] => ranged b 0 r
      | bs => bs ++ byteSet 0 r

def squeeze (set : List UInt8) (b : Bytes) : Bytes :=
  b.foldr (fun c rest => if set.contains c && rest.head? = some c then rest else c :: rest) []

def tr (args : List Text) : Work Status :=
  withArguments "AcCdst" "" args 1 fun a => do
    let b ← readInput
    let first := byteSet 0 (a.operands.headD [])
    let first := if a.has 'c' || a.has 'C' then
        ((List.range 256).map fun n => n.toUInt8).filter fun c => !first.contains c
      else first
    let second := byteSet 0 ((a.operands.drop 1).headD [])
    match a.operands with
    | [] =>
      complain "missing operand".toList
      pointToHelp
      return 1
    | [_] =>
      if a.has 'd' then say (b.filter fun c => !first.contains c)
      else if a.has 's' then say (squeeze first b)
      else
        complain ("missing operand after '".toList ++ (a.operands.headD []) ++ ['\''])
        note "Two strings must be given when translating.".toList
        pointToHelp
        return 1
      return 0
    | _ :: _ :: extra :: _ =>
      complain ("extra operand '".toList ++ extra ++ ['\''])
      pointToHelp
      return 1
    | _ =>
      let translated := if a.has 'd' then b.filter fun c => !first.contains c
        else b.map fun c =>
          match first.idxOf? c with
          | some i => (second[i]? <|> second.getLast?).getD c
          | none => c
      say (if a.has 's' then squeeze second translated else translated)
      return 0

/-- The ranges of a list such as `1,3-5,7-`. -/
def fieldRanges (t : Text) : List (Nat × Option Nat) :=
  (Text.split ',' t).map fun piece =>
    let low := piece.takeWhile isDigit
    match piece.drop low.length with
    | '-' :: r =>
      (if low.isEmpty then 1 else ofDigits low, if r.isEmpty then none else some (ofDigits r))
    | _ => (ofDigits low, some (ofDigits low))

def cut (args : List Text) : Work Status :=
  withArguments "nsz" "bcdf" args 1 fun a => do
    let ranges ← match a.value? 'f' <|> a.value? 'c' <|> a.value? 'b' with
      | some t =>
        if !t.all (fun c => isDigit c || c = '-' || c = ',') then
          complain ("invalid field value '".toList ++ t ++ ['\''])
          pointToHelp
          return 1
        pure (fieldRanges t)
      | none =>
        complain "you must specify a list of bytes, characters, or fields".toList
        pointToHelp
        return 1
    let wanted (i : Nat) : Bool := ranges.any fun r => r.1 ≤ i && r.2.all (i ≤ ·)
    let pick {α : Type} (xs : List α) : List α :=
      (xs.zipIdx 1).filterMap fun x => if wanted x.2 then some x.1 else none
    eachOperand a.operands fun _ b =>
      for line in byteLines b do
        if a.has 'f' then
          let delimiter := ((a.value? 'd').bind List.head?).getD '\t'
          let t := Utf8.decodeLossy line
          if t.contains delimiter then
            sayLine (Text.join [delimiter] (pick (Text.split delimiter t)))
          else if !a.has 's' then say (line ++ [10])
        else say (pick line ++ [10])

def tee (args : List Text) : Work Status :=
  withArguments "aip" "" args 1 fun a => do
    let b ← readInput
    let status ← each a.operands fun p => do
      if p = "/dev/stderr".toList then
        write .diagnostics b
        return 0
      if p = "/dev/stdout".toList then
        say b
        return 0
      match ← onFiles fun fs cwd => if a.has 'a' then fs.append cwd p b else fs.write cwd p b with
      | none => return 0
      | some e =>
        complain (p ++ ": ".toList ++ e.text)
        return 1
    say b
    return status

def byteCount (t : Text) : Nat :=
  let digits := t.takeWhile isDigit
  let unit := match String.ofList (t.drop digits.length) with
    | "k" | "K" => 1024
    | "kB" | "KB" => 1000
    | "M" => 1048576
    | "MB" => 1000000
    | "b" => 512
    | _ => 1
  ofDigits digits * unit

def dd (args : List Text) : Work Status := do
  let settings : List (Text × Text) := args.map fun t => (Text.cut? '=' t).getD (t, [])
  let setting? (name : String) : Option Text := settings.lookup name.toList
  let size := ((setting? "bs").map byteCount).getD 512
  let most := ((setting? "count").map byteCount).getD (endless / size)
  match ← readSome (size * most) ((setting? "if").getD ['-']) with
  | .error e =>
    complain ("failed to open '".toList ++ (setting? "if").getD [] ++ "': ".toList ++ e.text)
    return 1
  | .ok b =>
    let b := (b.drop (((setting? "skip").map byteCount).getD 0 * size)).take (size * most)
    let told : Work Status := do
      let records := decimal (b.length / size) ++ ['+']
        ++ decimal (if b.length % size = 0 then 0 else 1)
      if setting? "status" ≠ some "none".toList then
        note (records ++ " records in".toList)
        note (records ++ " records out".toList)
      return 0
    match setting? "of" with
    | none =>
      say b
      told
    | some p =>
      match ← onFiles fun fs cwd => fs.write cwd p b with
      | none => told
      | some e =>
        complain ("failed to open '".toList ++ p ++ "': ".toList ++ e.text)
        return 1

def tac (args : List Text) : Work Status :=
  withArguments "br" "s" args 1 fun a =>
  each (if a.operands.isEmpty then [['-']] else a.operands) fun p => do
    match ← readOperand p with
    | .ok b =>
      say (byteLinesKept b).reverse.flatten
      return 0
    | .error e =>
      complain ("failed to open '".toList ++ p ++ "' for reading: ".toList ++ e.text)
      return 1

def rev (args : List Text) : Work Status :=
  each (if args.isEmpty then [['-']] else args) fun p => do
    match ← readOperand p with
    | .ok b =>
      let reversed := (byteLines b).map fun line => Utf8.encode (Utf8.decodeLossy line).reverse
      let all := reversed.flatMap fun line => line ++ [10]
      say (if b.getLast? = some 10 then all else all.dropLast)
      return 0
    | .error e =>
      note ((← get).shortName ++ ": cannot open ".toList ++ p ++ ": ".toList ++ e.text)
      return 1

def printenv (args : List Text) : Work Status := do
  let env := (← get).environment
  if args.isEmpty then
    for v in env do
      sayLine (v.1 ++ '=' :: v.2)
    return 0
  each args fun name => do
    match env.lookup name with
    | some v =>
      sayLine v
      return 0
    | none => return 1

end Utility

end SoloCall.Shell
