import RadarProfile.Files
import RadarProfile.Session.Address
import RadarProfile.Session.Host
import RadarProfile.Session.Service

set_option autoImplicit false

/-! # Networks

What a machine has of a network: names of hosts, hosts and ports it can listen at,
interfaces, places for sockets, and the services that sessions elsewhere offer.

A session listens at its addresses one after the other. What comes of an address is a
listener, if the machine has what the address asks for and if no listener of the session is
in its way. An address that it can do without is passed over where that fails. -/

namespace RadarProfile

inductive Protocol where
  | tcp
  | udp
  | ws
  | tls
  | quic
  | unixSocket
deriving DecidableEq

namespace Protocol

def name : Protocol → Text
  | tcp => "tcp".toList
  | udp => "udp".toList
  | ws => "ws".toList
  | tls => "tls".toList
  | quic => "quic".toList
  | unixSocket => "unixsock-stream".toList

def ofText? (t : Text) : Option Protocol :=
  [tcp, udp, ws, tls, quic, unixSocket].find? fun protocol => protocol.name == t

end Protocol

structure Network where
  hostNamed : Text → Option Host
  hasHost : Host → Bool
  grantsPort : Nat → Bool
  hasInterface : Text → Bool
  socketPlace : Text → Option Place
  services : List (Text × Service)

/-- What a session listens with: a port for streams, one for datagrams, or a socket in the
file tree. -/
inductive Listener where
  | stream (port : Port)
  | datagrams (port : Port)
  | socket (place : Place)
deriving DecidableEq

/-- The second listener cannot be had beside the first. Streams and datagrams have ports of
their own. -/
def Listener.blocks : Listener → Listener → Bool
  | .stream a, .stream b => a.clashes b
  | .datagrams a, .datagrams b => a.clashes b
  -- a socket is also in the way of one that would keep its lock there
  | .socket a, .socket b => a == b || a == FileTree.lockOf b
  | _, _ => false

namespace Network

def absent : Network where
  hostNamed _ := none
  hasHost _ := false
  grantsPort _ := false
  hasInterface _ := false
  socketPlace _ := none
  services := []

def port? (network : Network) (place : Text) : Option Port :=
  match Address.hostAndPort? place with
  | none => none
  | some (host, number) =>
    match Host.ofText? host with
    | some host => some ⟨host, number⟩
    -- the host is not given by number, so it may be a name
    | none => (network.hostNamed host).map fun host => ⟨host, number⟩

/-! ## Options of listeners -/

def greatestWord : Nat := 4294967295

/-- A number of 32 bits, in decimal digits or in hexadecimal digits behind a mark. -/
def isWord : Text → Bool
  | '0' :: 'x' :: digits => ((Integer.ofDigits? 16 digits).filter (· ≤ greatestWord)).isSome
  | t => (Integer.natOfText? greatestWord t).isSome

/-- A class of traffic is one or more numbers with bars between them. -/
def isTrafficClass (t : Text) : Bool := (t.splitOnP (· == '|')).all isWord

def isBufferSize (t : Text) : Bool := (Integer.natOfText? greatestWord t).isSome

/-- The interface is there. The empty name asks for none. -/
def offersInterface (network : Network) (name : Text) : Bool :=
  name.isEmpty || network.hasInterface name

def meetsStreamOptions (network : Network) (a : Address) : Bool :=
  a.admits "dscp".toList isTrafficClass &&
    a.admits "so_sndbuf".toList isBufferSize &&
    a.admits "so_rcvbuf".toList isBufferSize &&
    a.admits "iface".toList network.offersInterface &&
    a.admits "bind".toList fun place => (network.port? place).isSome

/-- The words that say whether several streams are laid over reliable datagrams. -/
def multistreamWords : List Text :=
  ["auto", "0", "1", "false", "true"].map String.toList

/-- The metadata of datagrams make sense: they are reliable, or not, and several streams are
asked for in a known word if they are. -/
def readsReliability (a : Address) : Bool :=
  match a.described? "rel".toList with
  | none => true
  | some value =>
    match Integer.natOfText? 1 value with
    | none => false
    | some 0 => true
    | some _ => (a.described? "multistream".toList).all (multistreamWords.contains ·)

def meetsDatagramOptions (network : Network) (a : Address) : Bool :=
  readsReliability a &&
    a.admits "dscp".toList isTrafficClass &&
    a.admits "iface".toList network.offersInterface

/-! ## Listening -/

/-- The port at which an address is listened at, if the machine has it. -/
def grantedPort? (network : Network) (a : Address) : Option Port :=
  (network.port? a.place).filter fun port =>
    network.hasHost port.host && network.grantsPort port.number && a.fits port.given.toText

/-- What the session gets at an address. Datagrams and streams are not listened for at a group
of hosts. -/
def listener? (network : Network) (a : Address) : Option Listener :=
  match Protocol.ofText? a.protocol with
  | some .tcp =>
    if network.meetsStreamOptions a then
      ((network.grantedPort? a).filter (!·.host.isMulticast)).map .stream
    else none
  | some .udp =>
    if network.meetsDatagramOptions a then
      ((network.grantedPort? a).filter (!·.host.isMulticast)).map .datagrams
    else none
  | some .ws => (network.grantedPort? a).map .stream
  | some .unixSocket =>
    if a.fits a.place then (network.socketPlace a.place).map .socket else none
  -- listening by a certificate needs one, and a session has none
  | some .tls | some .quic | none => none

/-- Listens at addresses one after the other, beside listeners that are there. The fault is
the first address that fails and that is required. -/
def listen (network : Network) : List Listener → List Address → Except Address (List Listener)
  | held, [] => .ok held
  | held, a :: rest =>
    match (network.listener? a).filter fun new => !held.any (·.blocks new) with
    | some new => network.listen (new :: held) rest
    | none => if a.isRequired true then .error a else network.listen held rest

/-! ## Connecting -/

def serviceAt? (network : Network) (a : Address) : Option Service :=
  (network.services.find? fun entry => entry.1 == a.locator).map (·.2)

/-- The service behind the first address that can be reached, if any. -/
def reach (network : Network) (addresses : List Address) : Option Service :=
  addresses.findSome? network.serviceAt?

/-- It makes sense to keep trying an address: its protocol is spoken, and the host that is
to get datagrams is known and is a single one. -/
def isWorthTrying (network : Network) (a : Address) : Bool :=
  match Protocol.ofText? a.protocol with
  | none => false
  | some .udp => (network.port? a.place).any (!·.host.isMulticast)
  | some _ => true

/-- A session does not open because of an address that it connects to: nobody answers there,
and the address is required, or would have to be tried further to no purpose. -/
def isHeldUpBy (network : Network) (a : Address) : Bool :=
  (network.serviceAt? a).isNone &&
    (a.isRequired false || (!a.isTriedOnce && !network.isWorthTrying a))

end Network

end RadarProfile
