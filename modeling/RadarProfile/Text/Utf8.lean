import RadarProfile.Text.Basic

set_option autoImplicit false

/-! # UTF-8, read without refusing anything

Bytes are decoded one at a time. Between two bytes the decoder knows which byte the
sequence it is in still owes; a byte outside those bounds ends the sequence, which becomes
one replacement character, and is then looked at afresh. So each maximal part that could
have begun a character and did not complete one is replaced once, and every byte that
begins nothing is replaced on its own.

The bounds of the second byte exclude overlong forms, surrogates and code points above
`10FFFF`. No bound admits a byte below `80`, so an ASCII byte, a newline in particular,
always stands for itself whatever comes before it. -/

namespace RadarProfile.Utf8

/-- A multi-byte sequence that has begun: the bits of the code point read so far, the
bounds of the next byte, and how many bytes are owed after that one. -/
structure Owed where
  bits : Nat
  low : Nat
  high : Nat
  further : Nat
deriving DecidableEq

def replacement : Char := Char.ofNat 0xFFFD

/-- A byte outside every sequence: a character of its own, the start of a sequence, or
nothing that UTF-8 has. -/
def lead (b : Nat) : Text × Option Owed :=
  if b < 0x80 then ([Char.ofNat b], none)
  -- a byte that goes on with a sequence, or begins one that would be longer than it has to be
  else if b < 0xC2 then ([replacement], none)
  else if b < 0xE0 then ([], some ⟨b - 0xC0, 0x80, 0xBF, 0⟩)
  -- what may follow leaves out longer forms, surrogates and numbers beyond the last character
  else if b = 0xE0 then ([], some ⟨0x0, 0xA0, 0xBF, 1⟩)
  else if b = 0xED then ([], some ⟨0xD, 0x80, 0x9F, 1⟩)
  else if b < 0xF0 then ([], some ⟨b - 0xE0, 0x80, 0xBF, 1⟩)
  else if b = 0xF0 then ([], some ⟨0x0, 0x90, 0xBF, 2⟩)
  else if b < 0xF4 then ([], some ⟨b - 0xF0, 0x80, 0xBF, 2⟩)
  else if b = 0xF4 then ([], some ⟨0x4, 0x80, 0x8F, 2⟩)
  else ([replacement], none)

/-- One byte further: the characters it completes, and what is owed after it. -/
def step : Option Owed → Nat → Text × Option Owed
  | none, b => lead b
  | some owed, b =>
    if owed.low ≤ b ∧ b ≤ owed.high then
      let bits := owed.bits * 64 + (b - 0x80)
      match owed.further with
      | 0 => ([Char.ofNat bits], none)
      | further + 1 => ([], some ⟨bits, 0x80, 0xBF, further⟩)
    else
      -- the sequence breaks off, and the byte is looked at afresh
      (replacement :: (lead b).1, (lead b).2)

def finish : Option Owed → Text
  | none => []
  | some _ => [replacement]

/-- Decodes the bytes that follow, given what is owed before them. -/
def decodeFrom : Option Owed → List UInt8 → Text
  | owed, [] => finish owed
  | owed, b :: rest => (step owed b.toNat).1 ++ decodeFrom (step owed b.toNat).2 rest

/-- The text of any bytes: their UTF-8, with one replacement character for each maximal
invalid part. -/
def decode (bytes : List UInt8) : Text := decodeFrom none bytes

def encode (t : Text) : List UInt8 := t.flatMap String.utf8EncodeChar

end RadarProfile.Utf8
