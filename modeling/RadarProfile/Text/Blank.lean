import RadarProfile.Text.Basic

set_option autoImplicit false

/-! # Blank characters

The characters with the Unicode property `White_Space`. One table serves both the
classification of lines and the splitting of commands into tokens, so the two cannot
disagree on what separates words. -/

namespace RadarProfile

/-- The code points of the property `White_Space` as ranges, both ends included. -/
def blankRanges : List (Nat × Nat) :=
  [(0x09, 0x0D), (0x20, 0x20), (0x85, 0x85), (0xA0, 0xA0), (0x1680, 0x1680),
   (0x2000, 0x200A), (0x2028, 0x2029), (0x202F, 0x202F), (0x205F, 0x205F),
   (0x3000, 0x3000)]

def isBlank (c : Char) : Bool :=
  blankRanges.any fun range => range.1 ≤ c.toNat && c.toNat ≤ range.2

end RadarProfile
