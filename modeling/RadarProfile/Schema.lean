import RadarProfile.Text.Basic

set_option autoImplicit false

/-! # The schema of the sensor's commands

Each rule maps a token position of a command, the keyword being position zero, to a named
parameter and says how the token is converted. Positions without a rule carry nothing that
others need. -/

namespace RadarProfile

/-- How a token becomes a value: an integer, a floating-point number, or the number of
bits set in a mask between two positions, both included. -/
inductive Transform where
  | int
  | float
  | popcount (first last : Nat)
deriving DecidableEq

/-- One rule: the token at `index` of a command that starts with `keyword` gives
`parameter`. -/
structure Rule where
  keyword : Text
  index : Nat
  parameter : Text
  transform : Transform
deriving DecidableEq

namespace Rule

def named (keyword : String) (index : Nat) (parameter : String) (transform : Transform) :
    Rule :=
  ⟨keyword.toList, index, parameter.toList, transform⟩

end Rule

namespace Schema

/-- All rules, by command and then by position. -/
def rules : List Rule :=
  [.named "frameCfg" 1 "chirpStartIdx" .int,
   .named "frameCfg" 2 "chirpEndIdx" .int,
   .named "frameCfg" 3 "numLoops" .int,
   .named "frameCfg" 4 "numFrames" .int,
   .named "frameCfg" 5 "framePeriodicity" .float,
   .named "profileCfg" 2 "startFreq" .float,
   .named "profileCfg" 3 "idleTime" .float,
   .named "profileCfg" 5 "rampEndTime" .float,
   .named "profileCfg" 8 "freqSlopeConst" .float,
   .named "profileCfg" 10 "numAdcSamples" .int,
   .named "profileCfg" 11 "digOutSampleRate" .float,
   .named "compRangeBiasAndRxChanPhase" 1 "rangeBias" .float,
   -- transmit azimuth antennas are enabled by bits 0 and 1, receive antennas by bits 0 to 3
   .named "channelCfg" 1 "numTxAzimAnt" (.popcount 0 1),
   .named "channelCfg" 2 "numRxAnt" (.popcount 0 3)]

def rule? (keyword : Text) (index : Nat) : Option Rule :=
  rules.find? fun rule => rule.keyword == keyword && rule.index == index

/-- The command that stands for one transmit antenna each time it occurs. -/
def antennaKeyword : Text := "chirpCfg".toList

def antennaParameter : Text := "numTxAnt".toList

end Schema

/-- The number of bits set in a mask of 64 bits, in two's complement, at the positions from
`first` to `last`, both included. Positions from 64 on count nothing. -/
def popcount (mask : Int) (first last : Nat) : Nat :=
  (List.range 64).countP fun i =>
    decide (first ≤ i) && decide (i ≤ last) && (mask >>> i) % 2 == 1

end RadarProfile
