/-!
# Reading UTF-8

Bytes are read strictly: every encoded character must be complete, in its shortest form
and a Unicode scalar value. Reading stops at the first byte sequence that is none of
these, and the flaw says which bytes are at fault: a byte that starts nothing, the bytes
before one that does not continue them, or the bytes that the end of the input cuts off.
-/

namespace BlockLang.Text.Utf8

inductive Reason
  | badStart
  | badContinuation
  | cutOff
deriving DecidableEq, Repr

/-- The bytes at fault: the first of them, its position, how many they are, and why they
do not decode. -/
structure Flaw where
  byte : UInt8
  position : Nat
  count : Nat
  reason : Reason
deriving DecidableEq, Repr

def Reason.text : Reason → String
  | .badStart => "invalid start byte"
  | .badContinuation => "invalid continuation byte"
  | .cutOff => "unexpected end of data"

/-- The two hexadecimal digits of a byte. -/
def byteDigits (b : UInt8) : String :=
  String.ofList [Nat.digitChar (b.toNat / 16), Nat.digitChar (b.toNat % 16)]

/-- The message about a flaw. A single byte is shown, several are given by position. -/
def Flaw.message (flaw : Flaw) : String :=
  let place :=
    if flaw.count = 1 then
      "byte 0x" ++ byteDigits flaw.byte ++ " in position " ++ Nat.repr flaw.position
    else
      "bytes in position " ++ Nat.repr flaw.position ++ "-" ++
        Nat.repr (flaw.position + flaw.count - 1)
  "'utf-8' codec can't decode " ++ place ++ ": " ++ flaw.reason.text

/-- A character whose first bytes have been read: its first byte and the position of it,
how many bytes were read, how many are missing, the bounds of the next byte, and the
bits read so far. -/
structure Pending where
  lead : UInt8
  position : Nat
  seen : Nat
  missing : Nat
  least : UInt8
  greatest : UInt8
  bits : Nat

/-- What a byte above ASCII starts. The bounds of the second byte rule out longer forms
than needed, surrogates and values beyond the last code point. -/
def Pending.start? (position : Nat) (b : UInt8) : Option Pending :=
  if 0xc2 ≤ b && b ≤ 0xdf then some ⟨b, position, 1, 1, 0x80, 0xbf, b.toNat - 0xc0⟩
  else if 0xe0 ≤ b && b ≤ 0xef then
    some ⟨b, position, 1, 2, if b = 0xe0 then 0xa0 else 0x80, if b = 0xed then 0x9f else 0xbf,
      b.toNat - 0xe0⟩
  else if 0xf0 ≤ b && b ≤ 0xf4 then
    some ⟨b, position, 1, 3, if b = 0xf0 then 0x90 else 0x80, if b = 0xf4 then 0x8f else 0xbf,
      b.toNat - 0xf0⟩
  else none

def Pending.flaw (p : Pending) (reason : Reason) : Flaw :=
  ⟨p.lead, p.position, p.seen, reason⟩

def Pending.push (p : Pending) (b : UInt8) : Pending :=
  { p with
    seen := p.seen + 1, missing := p.missing - 1, least := 0x80, greatest := 0xbf,
    bits := p.bits * 64 + (b.toNat - 0x80) }

/-- Reads the bytes from a position on, given the characters read before, latest first,
and the character that is under way. -/
def decodeFrom (position : Nat) (read : List Char) : Option Pending → List UInt8 →
    Except Flaw (List Char)
  | none, [] => .ok read.reverse
  | some p, [] => .error (p.flaw .cutOff)
  | none, b :: rest =>
    if b < 0x80 then decodeFrom (position + 1) (Char.ofNat b.toNat :: read) none rest
    else match Pending.start? position b with
      | none => .error ⟨b, position, 1, .badStart⟩
      | some p => decodeFrom (position + 1) read (some p) rest
  | some p, b :: rest =>
    if p.least ≤ b && b ≤ p.greatest then
      if p.missing ≤ 1 then
        decodeFrom (position + 1) (Char.ofNat (p.push b).bits :: read) none rest
      else decodeFrom (position + 1) read (some (p.push b)) rest
    else .error (p.flaw .badContinuation)

/-- The characters that the bytes encode, or the first flaw. -/
def decode (bytes : List UInt8) : Except Flaw (List Char) :=
  decodeFrom 0 [] none bytes

end BlockLang.Text.Utf8
