import RadarProfile.Endpoint.Dispatch
import RadarProfile.Text.Utf8

set_option autoImplicit false

/-! # The serial port of the sensor

A command is written with a newline after it. The response is whatever then arrives, up to
and with the read that completes the sensor's prompt, or up to the deadline if the prompt
does not come. Reads are short and may time out in between; how the bytes are cut into
reads makes no difference to the text. -/

namespace RadarProfile.Serial

def usualBaud : Nat := 115200

def prompt : Text := "mmwDemo:/>".toList

def readSize : Nat := 256

/-! ## Reading a response -/

/-- The answer of the port to one read. -/
inductive PortRead where
  | bytes (bytes : List UInt8)
  | timedOut
  | failed (reason : Text)
deriving DecidableEq

/-- Reads on until the prompt is there, given the bytes read before. The list holds the
reads up to the deadline. -/
def responseAfter (bytes : List UInt8) : List PortRead → Except Text Text
  | [] => .ok (Utf8.decode bytes)
  | .timedOut :: rest => responseAfter bytes rest
  | .failed reason :: _ => .error reason
  -- no bytes mean that the line is at its end
  | .bytes [] :: _ => .ok (Utf8.decode bytes)
  | .bytes (b :: more) :: rest =>
    let all := bytes ++ b :: more
    if Text.occursIn prompt (Utf8.decode all) then .ok (Utf8.decode all)
    else responseAfter all rest

def response (reads : List PortRead) : Except Text Text := responseAfter [] reads

/-! ## The device -/

/-- What the device does on one line: it prints something, or it hangs up. -/
inductive DeviceReply where
  | prints (bytes : List UInt8)
  | hangsUp
deriving DecidableEq

/-- A device at the other end: what it will do next, whether it hung up, and the lines it
has taken so far. -/
structure Device where
  replies : List DeviceReply
  isGone : Bool
  received : List Text
deriving DecidableEq

def brokenPipe : Text := "Broken pipe".toList

def inReads (bytes : List UInt8) : List PortRead :=
  (List.range ((bytes.length + readSize - 1) / readSize)).map fun i =>
    .bytes ((bytes.drop (i * readSize)).take readSize)

/-- What a device prints for a line that it accepts: the line itself, the success marker and
the prompt. -/
def acceptance (line : Text) : List UInt8 :=
  Utf8.encode (line ++ "\r\n".toList ++ successMarker ++ "\r\n".toList ++ prompt)

namespace Device

def takeLine (device : Device) (line : Text) : Device × List PortRead :=
  if device.isGone then (device, [])
  else
    let taken := { device with
      replies := device.replies.tail
      received := device.received ++ [line] }
    -- when nothing else is prescribed the device accepts
    match device.replies.head?.getD (.prints (acceptance line)) with
    | .prints bytes => (taken, inReads bytes)
    | .hangsUp => ({ taken with isGone := true }, [])

def takeLines : Device → List Text → Device × List PortRead
  | device, [] => (device, [])
  | device, line :: rest =>
    let (next, first) := device.takeLine line
    let (last, others) := takeLines next rest
    (last, first ++ others)

end Device

/-! ## The endpoint -/

/-- The lines that a command makes at the device: the written text is the command and a
newline, and each newline ends a line. -/
def linesOf (command : Text) : List Text := command.splitOnP (· == '\n')

/-- The endpoint over a port, with the time in milliseconds after which a response is taken
to be complete. Its state is the device at the other end. -/
def endpoint (deadline : Nat) : Endpoint Device where
  send device command :=
    if device.isGone then ⟨.error (.stated brokenPipe), [], device⟩
    else
      let (next, printed) := device.takeLines (linesOf command)
      -- a device that hangs up over a command has taken it and is not read from
      if next.isGone then ⟨.error (.stated brokenPipe), [], next⟩
      else
        -- without time no read is begun
        match response (if deadline = 0 then [] else printed) with
        | .ok text => ⟨.ok text, [.portReplied text], next⟩
        | .error reason => ⟨.error (.stated reason), [], next⟩
  awaitReady _ _ := .atOnce

/-! ## Opening -/

/-- What a machine has at the path of a port: a device, or a reason why the port cannot be
opened. -/
abbrev PortAccess := Except Text Device

/-- Opens the port at a path, on a machine that has `ports`. -/
def openPort (ports : Text → PortAccess) (path : Text) : Except Error Device :=
  let access : PortAccess :=
    -- no path holds a null character
    if path.contains (Char.ofNat 0) then .error "Invalid argument".toList else ports path
  match access with
  | .ok device => .ok device
  | .error reason => .error (.delivery path (.stated reason))

end RadarProfile.Serial
