import RadarProfile.Endpoint.Serial
import RadarProfile.Files
import RadarProfile.Session.Config

set_option autoImplicit false

/-! # Surroundings of a program

What a program finds around it: files to open, serial ports, and a network. Programs are
functions of their command line and their surroundings, and what they did is their
result: there is no other effect. -/

namespace RadarProfile

structure Surroundings where
  openFile : Text → Except Fault ByteStream
  ports : Text → Serial.PortAccess
  network : Network

/-- Opening something in a file tree as a serial port: no file is a port. -/
def FileTree.portAt (tree : FileTree) (path : Text) : Serial.PortAccess :=
  match tree.resolve path with
  | .error (.system code) => .error (Fault.wording code)
  | .error (.described text) => .error text
  | .ok place =>
    .error (if tree.isDirectory place then "Is a directory".toList
      else "Not a typewriter".toList)

/-- What somebody outside has received: a line over a serial port, or a query. -/
inductive Receipt where
  | line (text : Text)
  | query (payload : Text)
deriving DecidableEq

def Service.receipts : Option Service → List Receipt
  | none => []
  | some service => service.received.map .query

def Serial.Device.receipts (device : Serial.Device) : List Receipt :=
  device.received.map .line

end RadarProfile
