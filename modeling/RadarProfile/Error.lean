import RadarProfile.Command.Parameters
import RadarProfile.Fault

set_option autoImplicit false

/-! # Errors

The ways in which a configuration run can fail, by cause. The wording of each is in one
function, `Error.message`. -/

namespace RadarProfile

/-- Why a command did not reach the sensor or its answer did not come back. -/
inductive DeliveryFault where
  /-- A reason that the transport gave in words. -/
  | stated (reason : Text)
  /-- The service is named by something that is no key expression. -/
  | invalidService (service : Text)
deriving DecidableEq

def DeliveryFault.message : DeliveryFault → Text
  | stated reason => reason
  | invalidService service => "no service can be named ".toList ++ Text.quoted service

/-- Why a session could not be had, or did not take a value. -/
inductive SessionFault where
  | malformedAddress (address : Text)
  /-- An address to listen on is not one of this machine. -/
  | cannotListen (address : Text)
  /-- An address that had to be connected to was out of reach. -/
  | cannotConnect (address : Text)
  | nobodyReachable
  /-- A value was to be published under something that is no key expression. -/
  | invalidKey (key : Text)
deriving DecidableEq

def SessionFault.message : SessionFault → Text
  | malformedAddress address => "malformed address ".toList ++ Text.quoted address
  | cannotListen address => "cannot listen on ".toList ++ Text.quoted address
  | cannotConnect address => "cannot connect to ".toList ++ Text.quoted address
  | nobodyReachable => "nobody to connect to".toList
  | invalidKey key => "no value can be published as ".toList ++ Text.quoted key

/-- Why a run failed. -/
inductive Error where
  | reading (fault : Fault)
  | opening (path : Text) (fault : Fault)
  | delivery (command : Text) (fault : DeliveryFault)
  /-- The sensor never answered a command with the success marker. -/
  | acceptance (command response : Text) (attempts : Nat)
  /-- A token of an accepted command could not be converted. -/
  | conversion (error : FieldError)
  | session (fault : SessionFault)
deriving DecidableEq

def Error.message : Error → Text
  | reading fault => "io error: ".toList ++ fault.message
  | opening path fault => "failed to open ".toList ++ path ++ ": ".toList ++ fault.message
  | delivery command fault =>
    "failed to deliver ".toList ++ Text.quoted command ++ ": ".toList ++ fault.message
  | acceptance command response attempts =>
    Text.quoted command ++ " failed after ".toList ++ Text.ofNat attempts ++
      " attempts, last response: ".toList ++ Text.quoted response
  | conversion error => "parse error: ".toList ++ error.message
  | session fault => "zenoh error: ".toList ++ fault.message

end RadarProfile
