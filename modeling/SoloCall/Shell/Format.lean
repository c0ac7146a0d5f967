import SoloCall.Shell.Real
import SoloCall.Text.Utf8

namespace SoloCall.Shell

namespace Format

def isOctal (c : Char) : Bool := '0' ≤ c && c ≤ '7'

def octalValue (t : Text) : Nat := t.foldl (fun n c => n * 8 + (c.toNat - 48)) 0

/-- The byte that a sequence stands for, by what follows its backslash, and the length of that. A
backslash that begins no sequence stands for itself. -/
def escape (t : Text) : UInt8 × Nat :=
  let octal := (t.take 3).takeWhile isOctal
  if !octal.isEmpty then ((octalValue octal).toUInt8, octal.length)
  else match t with
    | '\\' :: _ => (92, 1)
    | 'a' :: _ => (7, 1)
    | 'b' :: _ => (8, 1)
    | 'f' :: _ => (12, 1)
    | 'n' :: _ => (10, 1)
    | 'r' :: _ => (13, 1)
    | 't' :: _ => (9, 1)
    | 'v' :: _ => (11, 1)
    | _ => (92, 0)

/-- The bytes of a text with its sequences resolved, and whether a `\c` in it ends all output. An
octal sequence may have a zero in front of its three digits. -/
def unescapeFrom : (skip : Nat) → Text → Bytes × Bool
  | _, [] => ([], false)
  | skip + 1, _ :: r => unescapeFrom skip r
  | 0, c :: r =>
    if c ≠ '\\' then
      let (bytes, ends) := unescapeFrom 0 r
      (Utf8.encodeChar c ++ bytes, ends)
    else if r.head? = some 'c' then ([], true)
    else
      let zero := r.head? = some '0' && (r.tail.head?.any isOctal)
      let (byte, n) := escape (if zero then r.tail else r)
      let (bytes, ends) := unescapeFrom (if zero then n + 1 else n) r
      (byte :: bytes, ends)

def unescape (t : Text) : Bytes × Bool := unescapeFrom 0 t

inductive Size where
  | absent
  | given (n : Nat)
  | fromArgument

structure Conversion where
  flags : Text
  width : Size
  precision : Size
  kind : Char

inductive Directive where
  | bytes (b : Bytes)
  | convert (c : Conversion)
  | finish

def size (t : Text) : Size × Text :=
  match t with
  | '*' :: r => (.fromArgument, r)
  | _ =>
    let digits := t.takeWhile isDigit
    (if digits.isEmpty then .absent else .given (ofDigits digits), t.drop digits.length)

def conversion? (t : Text) : Option (Conversion × Nat) :=
  let isFlag (c : Char) : Bool := ['-', '+', ' ', '#', '0'].contains c
  let (width, r) := size (t.dropWhile isFlag)
  let (precision, r) := match r with
    | '.' :: r =>
      match size r with
      | (.absent, r) => (.given 0, r)
      | found => found
    | _ => (.absent, r)
  match r with
  | [] => none
  | kind :: r => some (⟨t.takeWhile isFlag, width, precision, kind⟩, t.length - r.length)

def directives : (skip : Nat) → Text → List Directive
  | _, [] => []
  | skip + 1, _ :: r => directives skip r
  | 0, c :: r =>
    if c = '\\' then
      if r.head? = some 'c' then [.finish]
      else
        let (byte, n) := escape r
        .bytes [byte] :: directives n r
    else if c = '%' then
      if r.head? = some '%' then .bytes [37] :: directives 1 r
      else match conversion? r with
        | some (conv, n) => .convert conv :: directives n r
        | none => [.bytes [37]]
    else .bytes (Utf8.encodeChar c) :: directives 0 r

def padTo (width : Nat) (left zeros : Bool) (sign body : Bytes) : Bytes :=
  let missing := width - (sign.length + body.length)
  if left then sign ++ body ++ List.replicate missing 32
  else if zeros then sign ++ List.replicate missing 48 ++ body
  else List.replicate missing 32 ++ sign ++ body

inductive Fault where
  | notANumber (t : Text)
  | incomplete (t : Text)
  | outOfRange (t : Text)
  | unknown (directive : Text)
  deriving DecidableEq, Repr

namespace Fault

def message : Fault → Text
  | notANumber t => t ++ ": expected numeric value".toList
  | incomplete t => t ++ ": not completely converted".toList
  | outOfRange t => t ++ ": Numerical result out of range".toList
  | unknown directive => directive ++ ": invalid directive".toList

def isFatal : Fault → Bool
  | unknown _ => true
  | notANumber _ | incomplete _ | outOfRange _ => false

def ofReading? (t rest : Text) (fits : Bool) : Option Fault :=
  if !rest.isEmpty then some (if rest = t then notANumber t else incomplete t)
  else if fits then none else some (outOfRange t)

end Fault

def quoted? (t : Text) : Option Nat :=
  match t with
  | c :: r => if c = '\'' || c = '"' then some ((Utf8.encode r).head?.getD 0).toNat else none
  | [] => none

/-- The number an argument gives to a conversion of whole numbers, cut to what sixty-four bits
hold, and what is wrong with it. -/
def wholeOf (signed : Bool) (t : Text) : Int × Option Fault :=
  match quoted? t with
  | some n => (n, none)
  | none =>
    let (n, rest) := Sum.numberAt t
    let least : Int := if signed then -(Nat.pow 2 63) else -maxWord
    let greatest : Int := if signed then Nat.pow 2 63 - 1 else maxWord
    let fits := least ≤ n && n ≤ greatest
    let cut := if fits then n else if n < least && signed then least else greatest
    (cut, Fault.ofReading? t rest fits)

def fractionOf (t : Text) : Real × Option Fault :=
  match quoted? t with
  | some n => (⟨false, Binary.ofRatio? n 1⟩, none)
  | none =>
    let (x, rest) := Real.readFrom t
    (x, Fault.ofReading? t rest x.magnitude?.isSome)

def digitsIn (base : Nat) (upper : Bool) (n : Nat) : Text :=
  let t := Nat.toDigits base n
  if upper then t.map Char.toUpper else t

structure Progress where
  args : List Text
  chunks : List Bytes := []
  faults : List Fault := []
  ended : Bool := false

namespace Progress

def next (p : Progress) : Text × Progress := (p.args.headD [], { p with args := p.args.tail })

def put (p : Progress) (b : Bytes) : Progress := { p with chunks := b :: p.chunks }

def blame (p : Progress) (fault? : Option Fault) : Progress :=
  { p with faults := fault?.toList ++ p.faults }

def sizeOf (p : Progress) : Size → Option Int × Progress
  | .absent => (none, p)
  | .given n => (some n, p)
  | .fromArgument =>
    let (t, p) := p.next
    let (n, fault?) := wholeOf true t
    (some n, p.blame fault?)

def signText (c : Conversion) (negative : Bool) : Text :=
  if negative then ['-'] else if c.flags.contains '+' then ['+']
  else if c.flags.contains ' ' then [' '] else []

def integer (p : Progress) (c : Conversion) (width : Nat) (left : Bool)
    (precision? : Option Int) : Progress :=
  let (t, p) := p.next
  let signedKind := c.kind = 'd' || c.kind = 'i'
  let (n, fault?) := wholeOf signedKind t
  let p := p.blame fault?
  let magnitude := if signedKind then n.natAbs else (n % Nat.pow 2 64).toNat
  let digits := match c.kind with
    | 'x' => digitsIn 16 false magnitude
    | 'X' => digitsIn 16 true magnitude
    | 'o' => digitsIn 8 false magnitude
    | _ => decimal magnitude
  let least := (precision?.getD 1).toNat
  let digits := List.replicate (least - digits.length) '0' ++ digits
  let sign : Text :=
    if signedKind then signText c (n < 0)
    else if c.flags.contains '#' && magnitude ≠ 0 then
      match c.kind with
      | 'x' => ['0', 'x']
      | 'X' => ['0', 'X']
      | 'o' => ['0']
      | _ => []
    else []
  let zeros := c.flags.contains '0' && precision?.isNone
  p.put (padTo width left zeros (Utf8.encode sign) (Utf8.encode digits))

def fraction (p : Progress) (c : Conversion) (width : Nat) (left : Bool)
    (precision? : Option Int) : Progress :=
  let (t, p) := p.next
  let (x, fault?) := fractionOf t
  let digits := x.magnitudeText c.kind ((precision?.filter (0 ≤ ·)).map Int.toNat)
    (c.flags.contains '#')
  let zeros := c.flags.contains '0' && x.magnitude?.isSome
  (p.blame fault?).put
    (padTo width left zeros (Utf8.encode (signText c x.negative)) (Utf8.encode digits))

def convert (p : Progress) (c : Conversion) : Progress :=
  let (width?, p) := p.sizeOf c.width
  let (precision?, p) := p.sizeOf c.precision
  let left := c.flags.contains '-' || width?.any (· < 0)
  let width := (width?.getD 0).natAbs
  let cut (b : Bytes) : Bytes :=
    match precision? with
    | some n => b.take n.toNat
    | none => b
  match c.kind with
  | 's' =>
    let (t, p) := p.next
    p.put (padTo width left false [] (cut (Utf8.encode t)))
  | 'b' =>
    let (t, p) := p.next
    let (b, ends) := unescape t
    { p.put (padTo width left false [] (cut b)) with ended := ends }
  | 'c' =>
    let (t, p) := p.next
    p.put (padTo width left false [] [(Utf8.encode t).head?.getD 0])
  | 'd' | 'i' | 'u' | 'x' | 'X' | 'o' => p.integer c width left precision?
  | 'e' | 'E' | 'f' | 'F' | 'g' | 'G' => p.fraction c width left precision?
  | kind => { p.blame (some (.unknown ('%' :: [kind]))) with ended := true }

def step (p : Progress) (d : Directive) : Progress :=
  if p.ended then p
  else match d with
    | .bytes b => p.put b
    | .convert c => p.convert c
    | .finish => { p with ended := true }

end Progress

def rounds (ds : List Directive) : (fuel : Nat) → Progress → Progress
  | 0, p => p
  | fuel + 1, p =>
    let before := p.args.length
    let p := ds.foldl Progress.step p
    if p.ended || p.args.isEmpty || p.args.length = before then p else rounds ds fuel p

/-- The output of a format with its arguments, and what was wrong with them. -/
def printf (format : Text) (args : List Text) : Bytes × List Fault :=
  let p := rounds (directives 0 format) (args.length + 1) ⟨args, [], [], false⟩
  (p.chunks.reverse.flatten, p.faults.reverse)

def echo (args : List Text) : Bytes :=
  let (args, line) := match args with
    | ['-', 'n'] :: rest => (rest, false)
    | args => (args, true)
  let (bytes, ends) := unescape (Text.join [' '] args)
  if line && !ends then bytes ++ [10] else bytes

end Format

end SoloCall.Shell
