import RadarProfile.Duration
import RadarProfile.Error
import RadarProfile.Line.Basic
import RadarProfile.Text.Visible

set_option autoImplicit false

/-! # The log

Everything worth a record is a note: a constructor that says what happened, with the data
it happened to. A note has a level and a wording. Which notes are shown is decided by a
filter on levels; a record is what is shown of a note. -/

namespace RadarProfile

/-! ## Levels -/

inductive Level where
  | error
  | warn
  | info
  | debug
  | trace
deriving DecidableEq

/-- The number of levels that are at least as grave, this one included. -/
def Level.depth : Level → Nat
  | error => 1
  | warn => 2
  | info => 3
  | debug => 4
  | trace => 5

def Level.name : Level → Text
  | error => "ERROR".toList
  | warn => "WARN".toList
  | info => "INFO".toList
  | debug => "DEBUG".toList
  | trace => "TRACE".toList

/-- Which records are shown: none, or those of a level and of all graver ones. -/
inductive LevelFilter where
  | off
  | upTo (level : Level)
deriving DecidableEq

namespace LevelFilter

def depth : LevelFilter → Nat
  | off => 0
  | upTo level => level.depth

def shows (filter : LevelFilter) (level : Level) : Bool := level.depth ≤ filter.depth

/-- The filters by the number of levels they show. -/
def byDepth : List LevelFilter :=
  [off, upTo .error, upTo .warn, upTo .info, upTo .debug, upTo .trace]

def name : LevelFilter → Text
  | off => "off".toList
  | upTo .error => "error".toList
  | upTo .warn => "warn".toList
  | upTo .info => "info".toList
  | upTo .debug => "debug".toList
  | upTo .trace => "trace".toList

/-- The filter that a word names, by its number of levels or by its name. -/
def ofText? (t : Text) : Option LevelFilter :=
  match Integer.natOfText? 18446744073709551615 t with
  | some depth => byDepth[depth]?
  | none =>
    if t.isEmpty then some (upTo .error)
    -- the letters of a name may be of either case
    else byDepth.find? fun filter => filter.name == t.map Char.toLower

end LevelFilter

/-! ## Totals of a run -/

/-- What a run has done: commands that the sensor accepted, lines without a command,
parameters handed to the store, and commands that stand for a transmit antenna. -/
structure Summary where
  commands : Nat
  skipped : Nat
  parameters : Nat
  antennas : Nat
deriving DecidableEq

namespace Summary

def zero : Summary := ⟨0, 0, 0, 0⟩

/-- What two runs have done together. -/
def add (a b : Summary) : Summary :=
  ⟨a.commands + b.commands, a.skipped + b.skipped, a.parameters + b.parameters,
    a.antennas + b.antennas⟩

end Summary

/-! ## Notes -/

def Line.Kind.name : Line.Kind → Text
  | blank => "Blank".toList
  | comment => "Comment".toList
  | command => "Command".toList

/-- Something that happened and is worth a record. -/
inductive Note where
  | lineRead (line : Line)
  | lineIgnored (line : Line)
  | lineSent (number : Nat) (command : Text)
  /-- A command is handed to the endpoint for the given time. -/
  | attempted (command : Text) (attempt : Nat)
  | accepted (command : Text)
  /-- A response lacked the success marker; `final` if there is no further attempt. -/
  | refused (command marker response : Text) (final : Bool)
  | derived (name : Text) (value : Value)
  | notStored (name : Text) (error : Error)
  /-- The store that only logs took a parameter. -/
  | stored (namespaceName key : Text) (value : Value)
  | waiting (milliseconds : Nat)
  | notReady (milliseconds : Nat)
  | serviceAlive (service : Text)
  | serviceReplied (service response : Text)
  | portReplied (response : Text)
  | portOpening (path : Text) (baud : Nat)
  | configuring (path : Text)
  | configured (path : Text) (summary : Summary)
  | failed (error : Error)
deriving DecidableEq

namespace Note

def level : Note → Level
  | lineRead _ => .trace
  | lineIgnored _ => .debug
  | lineSent _ _ => .info
  | attempted _ _ => .debug
  | accepted _ => .info
  | refused _ _ _ final => if final then .error else .warn
  | derived _ _ => .debug
  | notStored _ _ => .warn
  | stored _ _ _ => .info
  | waiting _ => .info
  | notReady _ => .warn
  | serviceAlive _ => .debug
  | serviceReplied _ _ => .trace
  | portReplied _ => .trace
  | portOpening _ _ => .debug
  | configuring _ => .info
  | configured _ _ => .info
  | failed _ => .error

def lineHeading (number : Nat) : Text := "line ".toList ++ Text.ofNat number ++ ": ".toList

/-- The beginning and the file of the two notes that frame a run. -/
def framing (opening path : Text) : Text :=
  opening ++ " mmWave device using config file: ".toList ++ path

/-- The totals, as the last note of a run shows them. -/
def totals (s : Summary) : Text :=
  " (".toList ++ Text.ofNat s.commands ++ " commands, ".toList ++ Text.ofNat s.skipped ++
    " skipped lines, ".toList ++ Text.ofNat s.parameters ++ " parameters, ".toList ++
    Text.ofNat s.antennas ++ " tx antennas)".toList

def message : Note → Text
  | lineRead line =>
    lineHeading line.number ++ line.kind.name ++ [' '] ++ Text.quoted line.text
  | lineIgnored line => lineHeading line.number ++ "ignored ".toList ++ Text.quoted line.text
  | lineSent number command =>
    lineHeading number ++ "sending ".toList ++ Text.quoted command
  | attempted command attempt =>
    "sending ".toList ++ Text.quoted command ++ " attempt ".toList ++ Text.ofNat attempt
  | accepted command => Text.quoted command ++ " accepted".toList
  | refused command marker response _ =>
    Text.quoted command ++ " not accepted (no ".toList ++ Text.quoted marker ++
      "), response: ".toList ++ Text.quoted response
  | derived name value => name ++ " = ".toList ++ value.logText
  | notStored name error =>
    "failed to set parameter ".toList ++ name ++ ": ".toList ++ error.message
  | stored namespaceName key value =>
    namespaceName ++ "/".toList ++ key ++ " = ".toList ++ value.logText
  | waiting milliseconds =>
    "waiting up to ".toList ++ Duration.toText milliseconds ++
      " for command endpoint".toList
  | notReady milliseconds =>
    "command endpoint not ready after ".toList ++ Duration.toText milliseconds
  | serviceAlive service => service ++ " is alive".toList
  | serviceReplied service response =>
    service ++ " replied ".toList ++ Text.quoted response
  | portReplied response => "serial response ".toList ++ Text.quoted response
  | portOpening path baud =>
    "opening serial port ".toList ++ path ++ " at ".toList ++ Text.ofNat baud ++
      " baud".toList
  | configuring path => framing "configuring".toList path
  | configured path summary => framing "done configuring".toList path ++ totals summary
  | failed error => error.message

end Note

/-! ## Records -/

structure Record where
  level : Level
  text : Text
deriving DecidableEq

def Note.record (note : Note) : Record := ⟨note.level, Text.visible note.message⟩

def LevelFilter.select (filter : LevelFilter) (notes : List Note) : List Note :=
  notes.filter fun note => filter.shows note.level

end RadarProfile
