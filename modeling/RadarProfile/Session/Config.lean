import RadarProfile.Error
import RadarProfile.Session.Network

set_option autoImplicit false

/-! # Sessions

A session connects to others, listens for them, or both. From the options of a command
line a configuration is made first, in which every address has been checked; a session is
then opened in the surroundings of the machine. A client needs somebody to connect to,
the other modes do not. -/

namespace RadarProfile

inductive SessionMode where
  | peer
  | client
  | router
deriving DecidableEq

namespace SessionMode

def name : SessionMode → Text
  | peer => "peer".toList
  | client => "client".toList
  | router => "router".toList

/-- The mode of a name, which has to be exact. -/
def ofText? (t : Text) : Option SessionMode :=
  [peer, client, router].find? fun mode => mode.name == t

end SessionMode

structure SessionOptions where
  mode : SessionMode
  connect : List Text
  listen : List Text
  noMulticastScouting : Bool
deriving DecidableEq

/-- Where a session listens: where its mode usually does, or at given addresses. -/
inductive Listening where
  | byMode
  | addresses (addresses : List Address)
deriving DecidableEq

/-- Where peers and routers usually listen; clients do not. -/
def Listening.usual : List (SessionMode × List Text) :=
  [(.peer, ["tcp/[::]:0".toList]), (.router, ["tcp/[::]:7447".toList])]

/-- A checked configuration. Multicast scouting is left to the session unless it was
switched off. -/
structure SessionConfig where
  mode : SessionMode
  connect : List Address
  listening : Listening
  multicast : Option Bool
deriving DecidableEq

/-- The addresses of texts. The first malformed one is the fault. -/
def checkAddresses : List Text → Except SessionFault (List Address)
  | [] => .ok []
  | text :: rest =>
    match Address.ofText? text with
    | none => .error (.malformedAddress text)
    | some address => (checkAddresses rest).map (address :: ·)

def SessionConfig.ofOptions (o : SessionOptions) : Except SessionFault SessionConfig :=
  match checkAddresses o.connect, checkAddresses o.listen with
  | .error fault, _ => .error fault
  | .ok _, .error fault => .error fault
  | .ok connect, .ok listen =>
    .ok ⟨o.mode, connect,
      if listen.isEmpty then .byMode else .addresses listen,
      if o.noMulticastScouting then some false else none⟩

/-! ## Opening -/

/-- The addresses that a session was given to listen at. Where it usually listens there is
always room. -/
def Listening.given : Listening → List Address
  | .byMode => []
  | .addresses given => given

/-- Opens a session. What comes of it is the service that the session reaches, if any. -/
def SessionConfig.connectTo (config : SessionConfig) (network : Network) :
    Except SessionFault (Option Service) :=
  let reached := network.reach config.connect
  match config.mode, reached with
  -- a client has to reach somebody
  | .client, none => .error .nobodyReachable
  | .client, some service => .ok (some service)
  | _, _ =>
    -- the other modes listen first and then connect
    match network.listen [] config.listening.given, config.connect.find? network.isHeldUpBy with
    | .error a, _ => .error (.cannotListen a.toText)
    | .ok _, some a => .error (.cannotConnect a.toText)
    | .ok _, none => .ok reached

def SessionOptions.openIn (o : SessionOptions) (network : Network) :
    Except SessionFault (Option Service) :=
  match SessionConfig.ofOptions o with
  | .error fault => .error fault
  | .ok config => config.connectTo network

end RadarProfile
