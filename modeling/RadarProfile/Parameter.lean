import RadarProfile.Number.Integer
import RadarProfile.Number.Layout

set_option autoImplicit false

/-! # Parameters

A parameter is a named value derived from a command. A value has two texts: one for the
log, and one for publication, which is a JSON scalar. -/

namespace RadarProfile

/-- A derived value: an integer of 64 bits, or a double. -/
inductive Value where
  | int (value : Int)
  | float (value : Binary64)
deriving DecidableEq

def Value.logText : Value → Text
  | int z => Text.ofInt z
  | float x => Layout.logged.write x

/-- The text of a value when published: a JSON scalar. -/
def Value.jsonText : Value → Text
  | int z => Text.ofInt z
  | float x => Layout.published.write x

structure Parameter where
  name : Text
  value : Value
deriving DecidableEq

end RadarProfile
