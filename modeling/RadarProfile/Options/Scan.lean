import RadarProfile.Options.Basic

set_option autoImplicit false

/-! # Scanning a command line

Words are taken one after the other. An option waits for its value, and a value waits to
be read until the next option or operand comes, so of two faults in a command line the one
that is met first in this order is reported. A word that is no option is refused at once,
whatever is still waiting.

Two dashes alone end the options. In a command, the options end with its first word. -/

namespace RadarProfile

abbrev Environment := Text → Option Text

structure Given where
  key : Key
  setting : Setting
deriving DecidableEq

/-- What waits to be read: an option and its value, once it is there, or an operand and its
words. -/
inductive Waiting where
  | nothing
  | option (row : OptionRow) (value : Option Text)
  | operand (words : List Text)
deriving DecidableEq

/-- The state between two words: what was given so far, what waits, whether the operand has
begun, and whether the options have ended. -/
structure Scan where
  given : List Given
  waiting : Waiting
  operandSeen : Bool
  optionsEnded : Bool
deriving DecidableEq

namespace Scan

def start : Scan := ⟨[], .nothing, false, false⟩

def lacks (scan : Scan) (key : Key) : Bool := scan.given.all fun given => given.key != key

/-- Takes a setting for an option, which must not occur again unless it repeats. -/
def give (scan : Scan) (row : OptionRow) (setting : Except UsageError Setting) :
    Except UsageError Scan :=
  if !row.repeats && !scan.lacks row.key then .error .repeated
  else match setting with
    | .error e => .error e
    | .ok setting => .ok { scan with given := scan.given ++ [⟨row.key, setting⟩] }

def giveWords (key : Key) (kind : ValueKind) : List Text → Except UsageError (List Given)
  | [] => .ok []
  | word :: rest =>
    match kind.read word, giveWords key kind rest with
    | .error e, _ => .error e
    | .ok _, .error e => .error e
    | .ok setting, .ok given => .ok (⟨key, setting⟩ :: given)

def settle (operand : Operand) (scan : Scan) : Except UsageError Scan :=
  let rested := { scan with waiting := .nothing }
  match scan.waiting with
  | .nothing => .ok rested
  | .option _ none => .error .missingValue
  | .option row (some value) => rested.give row (row.kind.read value)
  | .operand words =>
    match giveWords operand.key operand.kind words with
    | .error e => .error e
    | .ok given => .ok { rested with given := rested.given ++ given }

def await (operand : Operand) (scan : Scan) (row : OptionRow) : Except UsageError Scan :=
  (scan.settle operand).map fun settled =>
    { settled with waiting := .option row none }

def takeNow (operand : Operand) (scan : Scan) (row : OptionRow)
    (setting : Except UsageError Setting) : Except UsageError Scan :=
  match scan.settle operand with
  | .error e => .error e
  | .ok settled => settled.give row setting

/-- A word that is no option: the value of a waiting option, or an operand. -/
def takeWord (operand : Operand) (scan : Scan) (word : Text) : Except UsageError Scan :=
  match scan.waiting, scan.optionsEnded with
  -- behind the end of the options no word is a value
  | .option row none, false => .ok { scan with waiting := .option row (some word) }
  | _, _ =>
    match operand with
    | .single _ _ _ =>
      if scan.operandSeen then .error (.unknownWord word)
      else (scan.settle operand).map fun settled =>
        { settled with waiting := .operand [word], operandSeen := true }
    | .command _ =>
      match scan.waiting with
      | .operand words => .ok { scan with waiting := .operand (words ++ [word]) }
      | _ => (scan.settle operand).map fun settled =>
          { settled with
            waiting := .operand [word], operandSeen := true, optionsEnded := true }

/-- Stops for help or for the version, once what waits is read. -/
def stopFor (operand : Operand) (scan : Scan) (request : UsageError) :
    Except UsageError Scan :=
  match scan.settle operand with
  | .error e => .error e
  | .ok _ => .error request

/-- A long name, with the value attached to it, if any. -/
def takeLong (g : Grammar) (scan : Scan) (word name : Text) (attached : Option Text) :
    Except UsageError Scan :=
  match g.longNamed name with
  | none =>
    -- a name that is unknown may begin a command
    if g.operand.takesDashes then scan.takeWord g.operand word
    else .error (.unknownWord word)
  | some .help =>
    if attached.isSome then .error .valueOnFlag
    else scan.stopFor g.operand .helpRequested
  | some .version =>
    if attached.isSome then .error .valueOnFlag
    else scan.stopFor g.operand .versionRequested
  | some (.row row) =>
    if row.isFlag then
      if attached.isSome then .error .valueOnFlag
      else scan.takeNow g.operand row (.ok (.switch true))
    else
      match attached with
      | some value => scan.takeNow g.operand row (row.kind.read value)
      | none => scan.await g.operand row

/-- The letters after a single dash: flags, up to an option whose value is the rest. -/
def takeLetters (g : Grammar) (word : Text) : Text → Scan → Except UsageError Scan
  | [], scan => .ok scan
  | letter :: rest, scan =>
    match g.shortNamed letter with
    | none => .error (.unknownWord word)
    | some .help => scan.stopFor g.operand .helpRequested
    | some .version => scan.stopFor g.operand .versionRequested
    | some (.row row) =>
      if row.isFlag then
        match scan.takeNow g.operand row (.ok (.switch true)) with
        | .error e => .error e
        | .ok next => takeLetters g word rest next
      else if rest.isEmpty then scan.await g.operand row
      else scan.takeNow g.operand row (row.kind.read rest)

/-- A word after a single dash. -/
def takeShort (g : Grammar) (scan : Scan) (word letters : Text) :
    Except UsageError Scan :=
  -- a word with an unknown letter may begin a command
  if g.operand.takesDashes && letters.any fun letter => (g.shortNamed letter).isNone then
    scan.takeWord g.operand word
  else takeLetters g word letters scan

def step (g : Grammar) (scan : Scan) (word : Text) : Except UsageError Scan :=
  if scan.optionsEnded then scan.takeWord g.operand word
  else match word with
    | ['-', '-'] => .ok { scan with optionsEnded := true }
    | '-' :: '-' :: long =>
      scan.takeLong g word (long.takeWhile (· != '='))
        (match long.dropWhile (· != '=') with
          | [] => none
          | _ :: value => some value)
    | '-' :: letter :: letters => scan.takeShort g word (letter :: letters)
    | _ => scan.takeWord g.operand word

/-- All words, and then what still waits. -/
def scanWords (g : Grammar) : List Text → Scan → Except UsageError Scan
  | [], scan => scan.settle g.operand
  | word :: rest, scan =>
    match scan.step g word with
    | .error e => .error e
    | .ok next => scanWords g rest next

end Scan

/-! ## Variables -/

namespace Grammar

/-- The settings that can come from variables, in the order in which they are looked at:
the operand and then the options. -/
def variableRows (g : Grammar) : List (Key × Option Text × ValueKind) :=
  let first := match g.operand with
    | .single key variableName kind => [(key, variableName, kind)]
    | .command _ => []
  first ++ g.rows.map fun row => (row.key, row.variableName, row.kind)

/-- Takes settings from variables for the keys that the words did not give. -/
def fromVariables (environment : Environment) :
    List (Key × Option Text × ValueKind) → Scan → Except UsageError Scan
  | [], scan => .ok scan
  | (key, variableName, kind) :: rest, scan =>
    match variableName.bind environment with
    | none => fromVariables environment rest scan
    | some value =>
      if scan.lacks key then
        match kind.read value with
        | .error e => .error e
        | .ok setting =>
          fromVariables environment rest
            { scan with given := scan.given ++ [⟨key, setting⟩] }
      -- the variable of a key that was given need not be readable
      else fromVariables environment rest scan

/-- The settings that words and variables give. The operand must be among them. -/
def parse (g : Grammar) (environment : Environment) (words : List Text) :
    Except UsageError (List Given) :=
  match Scan.scanWords g words .start with
  | .error e => .error e
  | .ok scanned =>
    match fromVariables environment g.variableRows scanned with
    | .error e => .error e
    | .ok complete =>
      if complete.lacks g.operand.key then .error .missingOperand else .ok complete.given

end Grammar

/-! ## Looking settings up -/

namespace Settings

/-- All settings of a key, in order. -/
def all (given : List Given) (key : Key) : List Setting :=
  (given.filter fun g => g.key == key).map (·.setting)

def texts (given : List Given) (key : Key) : List Text :=
  (all given key).filterMap fun setting => match setting with
    | .text value => some value
    | _ => none

def text? (given : List Given) (key : Key) : Option Text := (texts given key).head?

def number (given : List Given) (key : Key) (default : Nat) : Nat :=
  ((all given key).findSome? fun setting => match setting with
    | .number value => some value
    | _ => none).getD default

def switch (given : List Given) (key : Key) : Bool :=
  ((all given key).findSome? fun setting => match setting with
    | .switch value => some value
    | _ => none).getD false

def level (given : List Given) (key : Key) (default : LevelFilter) : LevelFilter :=
  ((all given key).findSome? fun setting => match setting with
    | .level value => some value
    | _ => none).getD default

def mode (given : List Given) (key : Key) (default : SessionMode) : SessionMode :=
  ((all given key).findSome? fun setting => match setting with
    | .mode value => some value
    | _ => none).getD default

end Settings

end RadarProfile
