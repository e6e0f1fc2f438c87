import RadarProfile.Text.Basic

set_option autoImplicit false

/-! # Integer literals

An integer literal is one or more ASCII digits after at most one sign. Readers come in two
kinds: signed ones for 64-bit two's complement, and unsigned ones with a greatest value,
for which a plus sign is the only sign. A value out of range is refused, never wrapped.
Besides there are rows of digits in another radix, which have no sign. -/

namespace RadarProfile.Integer

def least : Int := -9223372036854775808

def greatest : Int := 9223372036854775807

def ofLiteral? (t : Text) : Option Int :=
  let (negative, digits) := Text.splitSign t
  if Text.isNumeral digits then
    let size : Int := Text.numeralValue digits
    some (if negative then -size else size)
  else none

def ofText? (t : Text) : Option Int :=
  match ofLiteral? t with
  | some z => if least ≤ z ∧ z ≤ greatest then some z else none
  | none => none

/-- The natural number of an unsigned literal, if it is at most `bound`. -/
def natOfText? (bound : Nat) (t : Text) : Option Nat :=
  -- a minus sign is refused even before zero
  let digits := match t with
    | '+' :: rest => rest
    | unsigned => unsigned
  if Text.isNumeral digits then
    let n := Text.numeralValue digits
    if n ≤ bound then some n else none
  else none

/-! ## Other radices -/

/-- The value of a digit; after nine the letters of either case go on. -/
def digitValue? (c : Char) : Option Nat :=
  if c.isDigit then some (c.toNat - '0'.toNat)
  else if 'a' ≤ c ∧ c ≤ 'f' then some (c.toNat - 'a'.toNat + 10)
  else if 'A' ≤ c ∧ c ≤ 'F' then some (c.toNat - 'A'.toNat + 10)
  else none

/-- The number that one or more digits denote in a radix, if all of them belong to it. -/
def ofDigits? (radix : Nat) (t : Text) : Option Nat :=
  if t.isEmpty then none
  else t.foldlM (fun n c => ((digitValue? c).filter (· < radix)).map (n * radix + ·)) 0

/-- The number of digits whose radix shows at their front: sixteen after a zero and an x,
eight after a zero, and ten otherwise. -/
def ofMarkedDigits? : Text → Option Nat
  | '0' :: 'x' :: digits => ofDigits? 16 digits
  | '0' :: 'X' :: digits => ofDigits? 16 digits
  | '0' :: digits => ofDigits? 8 ('0' :: digits)
  | digits => ofDigits? 10 digits

end RadarProfile.Integer
