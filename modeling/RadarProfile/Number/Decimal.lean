import RadarProfile.Number.Binary64
import RadarProfile.Text.Basic

set_option autoImplicit false

/-! # Decimal literals

A decimal literal is a sign, a row of digits with an optional point among, before or after
them, and an optional power of ten. Its value is exact until the last step, which takes
the nearest double. Spelled-out infinities and NaNs are no literals, and a literal whose
nearest double is not finite has no value. -/

namespace RadarProfile

/-- A decimal number: a sign, and a coefficient times a power of ten. -/
structure Decimal where
  negative : Bool
  coefficient : Nat
  exponent : Int
deriving DecidableEq

namespace Decimal

/-- Exponents are read digit by digit until they reach this size; the digits after that
are passed over. -/
def exponentCeiling : Nat := 65536

def exponentValue (digits : Text) : Nat :=
  digits.foldl
    (fun size c => if size < exponentCeiling then 10 * size + (c.toNat - 48) else size) 0

/-- The power of ten after the digits: nothing, or the letter `e` and a signed number. -/
def scale? : Text → Option Int
  | [] => some 0
  | letter :: rest =>
    if letter = 'e' ∨ letter = 'E' then
      let (negative, digits) := Text.splitSign rest
      if Text.isNumeral digits then
        let size : Int := exponentValue digits
        some (if negative then -size else size)
      else none
    else none

/-- The digits after a point, if there is a point, and what follows them. -/
def splitPlaces : Text → Text × Text
  | '.' :: rest => rest.span Char.isDigit
  | rest => ([], rest)

def ofText? (t : Text) : Option Decimal :=
  let (negative, body) := Text.splitSign t
  let (whole, rest) := body.span Char.isDigit
  let (places, rest) := splitPlaces rest
  if whole.isEmpty && places.isEmpty then none
  else
    match scale? rest with
    | some scale =>
      -- each place behind the point takes one from the exponent
      some ⟨negative, Text.numeralValue (whole ++ places), scale - places.length⟩
    | none => none

/-- The size is below half of the least double. -/
def isTiny (d : Decimal) : Bool :=
  -- a number has one bit more than its logarithm, and a power of ten takes three bits away
  d.coefficient == 0 || decide ((d.coefficient.log2 : Int) + 1076 ≤ -3 * d.exponent)

/-- The size is above `10^400`, and so above every finite double. -/
def isVast (d : Decimal) : Bool := d.coefficient != 0 && decide (400 < d.exponent)

/-- The rank of the double nearest to the size of the number. -/
def rank (d : Decimal) : Nat :=
  -- far outside the finite doubles the power of ten is not formed
  if d.isTiny then 0
  else if d.isVast then Binary64.finiteRanks
  else if 0 ≤ d.exponent then
    Binary64.nearestRank (d.coefficient * Nat.pow 10 d.exponent.toNat) 1
  else Binary64.nearestRank d.coefficient (Nat.pow 10 (-d.exponent).toNat)

/-- The nearest double, if it is finite. The sign is kept, also on zero. -/
def toBinary64? (d : Decimal) : Option Binary64 := Binary64.finite? d.negative d.rank

end Decimal

def Binary64.ofText? (t : Text) : Option Binary64 :=
  match Decimal.ofText? t with
  | some d => d.toBinary64?
  | none => none

end RadarProfile
