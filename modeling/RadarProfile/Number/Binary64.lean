set_option autoImplicit false

/-! # Binary floating point of 64 bits

A double is its three fields: sign, exponent and fraction. Finite doubles of one sign are
ordered like the number that exponent and fraction make together, here called the rank,
and each is a whole number of units of `2^(-1074)`.

Rounding a quotient to the nearest double works on ranks. Below `2^53` units the rank is
the number of units itself; every doubling of the size beyond that drops one more bit and
adds `2^52` to the rank. The formula needs no case for a significand that is rounded up to
the next power of two: the carry lands on the right rank by itself. -/

namespace RadarProfile

/-- The quotient of two natural numbers rounded to the nearest one; a half goes to the even
neighbour. -/
def roundHalfEven (num den : Nat) : Nat :=
  let quotient := num / den
  let double := 2 * (num % den)
  if double < den then quotient
  else if den < double then quotient + 1
  else if quotient % 2 = 0 then quotient else quotient + 1

/-- A double, as its sign, exponent and fraction fields. -/
structure Binary64 where
  negative : Bool
  exponent : Fin 2048
  fraction : Fin 4503599627370496
deriving DecidableEq

namespace Binary64

/-- How many ranks belong to finite doubles: the exponent field of all ones is left out. -/
def finiteRanks : Nat := 2047 * 4503599627370496

def isFinite (x : Binary64) : Bool := x.exponent.val < 2047

/-- The place of the double among those of its sign, from zero up. -/
def rank (x : Binary64) : Nat := x.exponent.val * 4503599627370496 + x.fraction.val

/-- The size of a finite double in units of `2^(-1074)`. -/
def units (x : Binary64) : Nat :=
  -- where the exponent field is zero there is no leading bit
  if x.exponent.val = 0 then x.fraction.val
  else (4503599627370496 + x.fraction.val) * Nat.pow 2 (x.exponent.val - 1)

/-- The double of a sign and a rank below `2^63`; larger ranks are taken modulo that. -/
def ofRank (negative : Bool) (rank : Nat) : Binary64 :=
  ⟨negative, Fin.ofNat 2048 (rank / 4503599627370496),
    Fin.ofNat 4503599627370496 rank⟩

def finite? (negative : Bool) (rank : Nat) : Option Binary64 :=
  if rank < finiteRanks then some (ofRank negative rank) else none

def toBits (x : Binary64) : Nat :=
  (if x.negative then 9223372036854775808 else 0) + x.rank

def ofBits (bits : Nat) : Binary64 :=
  ofRank (bits / 9223372036854775808 % 2 == 1) (bits % 9223372036854775808)

/-- The rank of the double nearest to `num / den`, a half going to the even rank. Ranks
from `finiteRanks` on say that the quotient is too large for a double. -/
def nearestRank (num den : Nat) : Nat :=
  let whole := num * Nat.pow 2 1074 / den
  -- a significand has 53 bits
  let dropped := whole.log2 + 1 - 53
  dropped * 4503599627370496 + roundHalfEven (num * Nat.pow 2 1074) (den * Nat.pow 2 dropped)

end Binary64

end RadarProfile
