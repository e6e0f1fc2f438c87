import RadarProfile.Number.Shortest
import RadarProfile.Text.Basic

set_option autoImplicit false

/-! # Layouts of floating-point text

The digits of a double are written plainly, with a point and at least one digit on each
side of it, or with a power of ten. A layout says where plain writing ends and how the
rest is spelled. Two layouts are in use: one for the log, one for published values. They
differ in the smallest size that is still written plainly, in the plus sign of exponents,
in ties, and in what is written for values that are no numbers. -/

namespace RadarProfile

/-- The decisions of one format. The position of the point is counted from the first
digit: `0.1` has it at zero, `1.0` at one. -/
structure Layout where
  /-- The least position of the point that is written plainly. -/
  leastPlain : Int
  /-- The greatest position of the point that is written plainly. -/
  greatestPlain : Int
  /-- What stands before the digits of an exponent that is not negative. -/
  exponentPlus : Text
  /-- Which of two equally near shortest forms is taken. -/
  tie : TieRule
  notANumber : Text
  infinite : Text
  negativeInfinite : Text

namespace Layout

/-- The log writes sizes from `10^(-4)` up to `10^16` plainly, and exponents bare. -/
def logged : Layout where
  leastPlain := -3
  greatestPlain := 16
  exponentPlus := []
  tie := .up
  notANumber := "NaN".toList
  infinite := "inf".toList
  negativeInfinite := "-inf".toList

/-- Published values are written plainly from `10^(-5)` up to `10^16`; exponents that are
not negative have a plus sign, and what is no number is `null`. -/
def published : Layout where
  leastPlain := -4
  greatestPlain := 16
  exponentPlus := ['+']
  tie := .even
  notANumber := "null".toList
  infinite := "null".toList
  negativeInfinite := "null".toList

/-- Digits with the point at `position`, written without an exponent. -/
def plain (digits : Text) (position : Int) : Text :=
  -- the point stands before the digits, behind them or among them
  if position ≤ 0 then "0.".toList ++ List.replicate (-position).toNat '0' ++ digits
  else if digits.length ≤ position.toNat then
    digits ++ List.replicate (position.toNat - digits.length) '0' ++ ".0".toList
  else digits.take position.toNat ++ '.' :: digits.drop position.toNat

/-- Digits with the point after the first one, and an exponent. -/
def scientific (layout : Layout) (digits : Text) (position : Int) : Text :=
  let exponent := position - 1
  let places := match digits.drop 1 with
    | [] => []
    | rest => '.' :: rest
  let sign := if 0 ≤ exponent then layout.exponentPlus else []
  digits.take 1 ++ places ++ 'e' :: sign ++ Text.ofInt exponent

def size (layout : Layout) (x : Binary64) : Text :=
  if x.rank = 0 then "0.0".toList
  else
    let point := Shortest.ofBinary64 layout.tie x
    let digits := Text.ofNat point.digits
    let position : Int := (point.grid : Int) - 1074 + digits.length
    if layout.leastPlain ≤ position ∧ position ≤ layout.greatestPlain then
      plain digits position
    else layout.scientific digits position

def write (layout : Layout) (x : Binary64) : Text :=
  if x.isFinite then
    if x.negative then '-' :: layout.size x else layout.size x
  else if x.fraction.val ≠ 0 then layout.notANumber
  else if x.negative then layout.negativeInfinite
  else layout.infinite

end Layout

end RadarProfile
