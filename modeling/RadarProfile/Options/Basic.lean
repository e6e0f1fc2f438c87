import RadarProfile.Log
import RadarProfile.Session.Config

set_option autoImplicit false

/-! # Options

A program's command line is described by a table: one row for each option, with its names,
whether it takes a value and how often it may occur, the environment variable that stands
in for it, and how its value is read. What is not an option is an operand: a single path,
or a command whose words are all passed on as they are. -/

namespace RadarProfile

/-! ## Usage errors -/

/-- Why a command line is not run. Asking for help or for the version is among them. -/
inductive UsageError where
  | helpRequested
  | versionRequested
  | missingOperand
  /-- A word is neither an option nor expected as an operand. -/
  | unknownWord (word : Text)
  | missingValue
  | emptyPath
  /-- A variable for a flag holds neither `true` nor `false`. -/
  | notASwitch (value : Text)
  | unreadable (value : Text)
  /-- An option that may occur once occurs again. -/
  | repeated
  | valueOnFlag
deriving DecidableEq

def UsageError.exitStatus : UsageError → Nat
  | helpRequested => 0
  | versionRequested => 0
  | _ => 2

/-! ## Settings -/

inductive Key where
  | config
  | service
  | namespaceName
  | successMarker
  | waitTimeout
  | queryTimeout
  | serial
  | baud
  | dryRun
  | logLevel
  | profiler
  | mode
  | connect
  | listen
  | noMulticastScouting
  | timeout
  | retry
  | command
deriving DecidableEq

inductive Setting where
  | text (value : Text)
  | number (value : Nat)
  | switch (value : Bool)
  | level (value : LevelFilter)
  | mode (value : SessionMode)
deriving DecidableEq

inductive ValueKind where
  | text
  /-- A path: any text but the empty one. -/
  | path
  /-- An unsigned literal up to a bound. -/
  | natural (bound : Nat)
  /-- An integer literal from zero up to a bound; it may have a minus sign before zero. -/
  | integer (bound : Nat)
  /-- Nothing on the command line; `true` or `false` in a variable. -/
  | switch
  | level
  | mode
deriving DecidableEq

namespace ValueKind

def orUnreadable (value : Text) : Option Setting → Except UsageError Setting
  | some setting => .ok setting
  | none => .error (.unreadable value)

def read (kind : ValueKind) (value : Text) : Except UsageError Setting :=
  match kind with
  | text => .ok (.text value)
  | path => if value.isEmpty then .error .emptyPath else .ok (.text value)
  | natural bound => orUnreadable value ((Integer.natOfText? bound value).map .number)
  | integer bound =>
    orUnreadable value <| match Integer.ofText? value with
      | some z => if 0 ≤ z ∧ z ≤ bound then some (.number z.toNat) else none
      | none => none
  | switch =>
    if value = "true".toList then .ok (.switch true)
    else if value = "false".toList then .ok (.switch false)
    else .error (.notASwitch value)
  | level => orUnreadable value ((LevelFilter.ofText? value).map .level)
  | mode => orUnreadable value ((SessionMode.ofText? value).map .mode)

end ValueKind

/-! ## Tables -/

/-- An option: the setting it gives, its names, whether it may occur more than once, its
environment variable, and how its value is read. Flags are the options read as a switch. -/
structure OptionRow where
  key : Key
  long : Text
  short : Option Char
  repeats : Bool
  variableName : Option Text
  kind : ValueKind
deriving DecidableEq

/-- The option has no value on the command line. -/
def OptionRow.isFlag (row : OptionRow) : Bool := row.kind == .switch

/-- What may stand beside the options: one value, or a command that begins with the first
word that is no option and takes everything after it. -/
inductive Operand where
  | single (key : Key) (variableName : Option Text) (kind : ValueKind)
  | command (key : Key)
deriving DecidableEq

namespace Operand

def key : Operand → Key
  | single key _ _ => key
  | command key => key

def kind : Operand → ValueKind
  | single _ _ kind => kind
  | command _ => .text

/-- Words that look like options but are none begin the operand. -/
def takesDashes : Operand → Bool
  | single _ _ _ => false
  | command _ => true

end Operand

structure Grammar where
  operand : Operand
  rows : List OptionRow

/-- What an option's name stands for: help, version, or a row of the table. -/
inductive Named where
  | help
  | version
  | row (row : OptionRow)
deriving DecidableEq

namespace Grammar

def longNamed (g : Grammar) (name : Text) : Option Named :=
  match g.rows.find? fun row => row.long == name with
  | some row => some (.row row)
  | none =>
    if name = "help".toList then some .help
    else if name = "version".toList then some .version
    else none

def shortNamed (g : Grammar) (letter : Char) : Option Named :=
  match g.rows.find? fun row => row.short == some letter with
  | some row => some (.row row)
  | none =>
    if letter = 'h' then some .help
    else if letter = 'V' then some .version
    else none

end Grammar

end RadarProfile
