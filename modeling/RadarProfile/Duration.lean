import RadarProfile.Text.Basic

set_option autoImplicit false

/-! # Durations as text

A duration is a number of milliseconds. From one second on it is shown in seconds with the
digits after the point that it needs, below that in milliseconds, and zero in
nanoseconds. -/

namespace RadarProfile.Duration

/-- Three places after the point, without the zeros at their end. -/
def places (milliseconds : Nat) : Text :=
  let digits := Text.ofNat milliseconds
  let padded := List.replicate (3 - digits.length) '0' ++ digits
  (padded.reverse.dropWhile (· == '0')).reverse

def toText (milliseconds : Nat) : Text :=
  if milliseconds = 0 then "0ns".toList
  else if milliseconds < 1000 then Text.ofNat milliseconds ++ "ms".toList
  else
    let seconds := Text.ofNat (milliseconds / 1000)
    match places (milliseconds % 1000) with
    | [] => seconds ++ "s".toList
    | fraction => seconds ++ '.' :: fraction ++ "s".toList

end RadarProfile.Duration
