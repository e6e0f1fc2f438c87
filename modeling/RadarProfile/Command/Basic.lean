import RadarProfile.Text.Blank

set_option autoImplicit false

/-! # Commands

A command is a keyword and its arguments: the words of a text that blank characters
separate. There is always a keyword, so a text without any word is no command. -/

namespace RadarProfile

/-- The words of a text: its longest parts without blank characters. -/
def words (t : Text) : List Text := (t.splitOnP isBlank).filter (!·.isEmpty)

structure Command where
  keyword : Text
  arguments : List Text
deriving DecidableEq

namespace Command

def ofText? (t : Text) : Option Command :=
  match words t with
  | [] => none
  | keyword :: arguments => some ⟨keyword, arguments⟩

def tokens (c : Command) : List Text := c.keyword :: c.arguments

/-- The command as text: its tokens with one space between neighbours. -/
def toText (c : Command) : Text := Text.joinWithSpaces c.tokens

end Command

end RadarProfile
