set_option autoImplicit false

/-! # Text

Text is a list of characters throughout the library: what is read from a profile, what is
sent to the sensor and what is written to the log. This file holds the few general
operations the other modules share: decimal digits, the sign in front of a number, quoting
for messages, and the search for a contiguous part. -/

namespace RadarProfile

/-- Text as the library handles it: a list of characters. -/
abbrev Text := List Char

namespace Text

/-- The decimal digits of a natural number, without leading zeros; zero is one digit. -/
def ofNat (n : Nat) : Text := Nat.toDigits 10 n

def ofInt (z : Int) : Text :=
  if z < 0 then '-' :: ofNat z.natAbs else ofNat z.natAbs

/-- Splits an optional single sign off the front; the flag is set for a minus sign. -/
def splitSign : Text → Bool × Text
  | '-' :: rest => (true, rest)
  | '+' :: rest => (false, rest)
  | unsigned => (false, unsigned)

/-- The text is one or more ASCII digits and nothing else. -/
def isNumeral (t : Text) : Bool := !t.isEmpty && t.all Char.isDigit

def numeralValue (digits : Text) : Nat := Nat.ofDigitChars 10 digits 0

def quoted (t : Text) : Text := "'".toList ++ t ++ "'".toList

/-- `occursIn part whole` holds when the characters of `part` stand side by side somewhere
in `whole`. The empty text occurs in every text. -/
def occursIn (part : Text) : Text → Bool
  | [] => part.isEmpty
  | c :: rest => part.isPrefixOf (c :: rest) || occursIn part rest

/-- The texts one after the other, with one space between neighbours. -/
def joinWithSpaces (ts : List Text) : Text := [' '].intercalate ts

end Text

end RadarProfile
