import RadarProfile.Text.Basic

set_option autoImplicit false

/-! # Text for a terminal

Some control characters make a terminal do something other than to show them. Where text
from outside is shown, they are written as their numbers: the escape character and four
others that can begin or support a command to the terminal, and all control characters
beyond ASCII. Tabs, newlines and the like are shown as they are. -/

namespace RadarProfile.Text

/-- The ASCII characters that a terminal acts on. -/
def terminalControls : List Nat := [0x07, 0x08, 0x0C, 0x1B, 0x7F]

/-- The hexadecimal digits of a number, with at least two of them. -/
def hexDigits (n : Nat) : Text :=
  let digits := Nat.toDigits 16 n
  List.replicate (2 - digits.length) '0' ++ digits

def visibleChar (c : Char) : Text :=
  if terminalControls.contains c.toNat then "\\x".toList ++ hexDigits c.toNat
  else if 0x80 ≤ c.toNat ∧ c.toNat ≤ 0x9F then
    "\\u\x7b".toList ++ hexDigits c.toNat ++ "\x7d".toList
  else [c]

def visible (t : Text) : Text := t.flatMap visibleChar

end RadarProfile.Text
