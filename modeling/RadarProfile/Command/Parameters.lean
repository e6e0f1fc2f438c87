import RadarProfile.Command.Basic
import RadarProfile.Number.Decimal
import RadarProfile.Parameter
import RadarProfile.Schema

set_option autoImplicit false

/-! # Parameters of a command

The tokens of a command are taken in order; one with a rule is converted, one without is
passed over. The first token that cannot be converted is the fault of the whole command,
and no parameter comes of it, not even of the tokens before. A command with fewer tokens
than rules simply has fewer parameters. -/

namespace RadarProfile

inductive Expected where
  | int
  | float
deriving DecidableEq

def Expected.message : Expected → Text
  | int => "integer".toList
  | float => "float".toList

/-- A token that could not be converted. -/
structure FieldError where
  keyword : Text
  index : Nat
  token : Text
  expected : Expected
deriving DecidableEq

def FieldError.message (e : FieldError) : Text :=
  e.keyword ++ " field ".toList ++ Text.ofNat e.index ++ ": expected ".toList ++
    e.expected.message ++ " but got ".toList ++ Text.quoted e.token

namespace Transform

def expected : Transform → Expected
  | int => .int
  | float => .float
  | popcount _ _ => .int

/-- The value of a token, if the token is a literal of the right kind. -/
def convert? : Transform → Text → Option Value
  | int, token => (Integer.ofText? token).map .int
  | float, token => (Binary64.ofText? token).map .float
  | popcount first last, token =>
    (Integer.ofText? token).map fun mask => .int (RadarProfile.popcount mask first last)

end Transform

namespace Command

/-- The parameters of the tokens from position `index` on. -/
def parametersFrom (keyword : Text) : Nat → List Text → Except FieldError (List Parameter)
  | _, [] => .ok []
  | index, token :: rest =>
    match Schema.rule? keyword index with
    -- a position without a rule carries nothing
    | none => parametersFrom keyword (index + 1) rest
    | some rule =>
      match rule.transform.convert? token with
      | none => .error ⟨keyword, index, token, rule.transform.expected⟩
      | some value =>
        match parametersFrom keyword (index + 1) rest with
        | .error e => .error e
        | .ok parameters => .ok (⟨rule.parameter, value⟩ :: parameters)

def parameters (c : Command) : Except FieldError (List Parameter) :=
  parametersFrom c.keyword 1 c.arguments

end Command

/-! ## The antenna tally -/

/-- How many antennas a command stands for: one if it starts with the tallied keyword. -/
def Command.antennas (c : Command) : Nat :=
  if c.keyword = Schema.antennaKeyword then 1 else 0

def antennaTally (count : Nat) : Parameter := ⟨Schema.antennaParameter, .int count⟩

end RadarProfile
