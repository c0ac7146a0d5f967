import SoloCall.Text.Basic

namespace SoloCall

abbrev Bytes := List UInt8

namespace Utf8

def encodeChar (c : Char) : Bytes :=
  let n := c.toNat
  let tail (shift : Nat) : UInt8 := (0x80 + n / shift % 0x40).toUInt8
  if n < 0x80 then [n.toUInt8]
  else if n < 0x800 then [(0xC0 + n / 0x40).toUInt8, tail 1]
  else if n < 0x10000 then [(0xE0 + n / 0x1000).toUInt8, tail 0x40, tail 1]
  else [(0xF0 + n / 0x40000).toUInt8, tail 0x1000, tail 0x40, tail 1]

def encode (t : Text) : Bytes := t.flatMap encodeChar

structure Open where
  wanted : Nat
  low : Nat
  high : Nat
  code : Nat

inductive Start where
  | char (c : Char)
  | opens (s : Open)
  | nothing

/-- The second byte of some sequences is held to a narrower range, so that no character has two
spellings, surrogates have none, and nothing lies beyond the last code point. -/
def start (b : Nat) : Start :=
  if b < 0x80 then .char (Char.ofNat b)
  else if b < 0xC2 then .nothing
  else if b < 0xE0 then .opens ⟨1, 0x80, 0xBF, b - 0xC0⟩
  else if b = 0xE0 then .opens ⟨2, 0xA0, 0xBF, 0⟩
  else if b = 0xED then .opens ⟨2, 0x80, 0x9F, 0xD⟩
  else if b < 0xF0 then .opens ⟨2, 0x80, 0xBF, b - 0xE0⟩
  else if b = 0xF0 then .opens ⟨3, 0x90, 0xBF, 0⟩
  else if b < 0xF4 then .opens ⟨3, 0x80, 0xBF, b - 0xF0⟩
  else if b = 0xF4 then .opens ⟨3, 0x80, 0x8F, 4⟩
  else .nothing

structure Reader where
  units : List (Option Char) := []
  pending : Option Open := none

def Reader.begin (units : List (Option Char)) (b : Nat) : Reader :=
  match start b with
  | .char c => ⟨some c :: units, none⟩
  | .opens s => ⟨units, some s⟩
  | .nothing => ⟨none :: units, none⟩

def Reader.feed (r : Reader) (byte : UInt8) : Reader :=
  let b := byte.toNat
  match r.pending with
  | none => .begin r.units b
  | some s =>
    if s.low ≤ b && b ≤ s.high then
      let code := s.code * 0x40 + b % 0x40
      if s.wanted = 1 then ⟨some (Char.ofNat code) :: r.units, none⟩
      else ⟨r.units, some ⟨s.wanted - 1, 0x80, 0xBF, code⟩⟩
    else .begin (none :: r.units) b

def Reader.finish (r : Reader) : List (Option Char) :=
  (if r.pending.isSome then none :: r.units else r.units).reverse

/-- The characters of a byte sequence. Each longest run of bytes that could have begun a
character, and each byte that could not, stands for one missing character. -/
def decode (bytes : Bytes) : List (Option Char) := (bytes.foldl Reader.feed {}).finish

def decode? (bytes : Bytes) : Option Text := (decode bytes).mapM id

def decodeLossy (bytes : Bytes) : Text := (decode bytes).map fun u => u.getD '\uFFFD'

end Utf8

end SoloCall
