import RadarProfile.Text.Blank

set_option autoImplicit false

/-! # Lines of a profile

A profile is a list of lines, numbered from one. A line is blank, a comment (its first
character that is not blank is a percent sign) or a command for the sensor. The text of a
line holds no carriage return: they are dropped wherever they stand, before anything else
looks at the text. -/

namespace RadarProfile

/-- What a line is for. -/
inductive Line.Kind where
  | blank
  | comment
  | command
deriving DecidableEq

structure Line where
  number : Nat
  text : Text
deriving DecidableEq

/-- The kind of a text: decided by its first character that is not blank, if any. -/
def Line.Kind.ofText (t : Text) : Line.Kind :=
  match t.dropWhile isBlank with
  | [] => blank
  | '%' :: _ => comment
  | _ => command

namespace Line

/-- The line of a raw text: the text without its carriage returns. -/
def ofRaw (number : Nat) (raw : Text) : Line :=
  ⟨number, raw.filter (· != '\r')⟩

def kind (line : Line) : Line.Kind := Line.Kind.ofText line.text

def command? (line : Line) : Option Text :=
  match line.kind with
  | .command => some line.text
  | _ => none

end Line

end RadarProfile
