import RadarProfile.Program.Configure
import RadarProfile.Program.Forward

set_option autoImplicit false

/-! # Running the programs

The first word chooses the program, `configure` or `forward`; the words after it are the
program's command line. Everything the program needs from outside is fetched beforehand:
the variables that its table names, and the profile that its options name. What it shows
goes to the standard output, and its status is the exit status.

Of the surroundings only the file system is attached here. There is no serial port and no
network, so a profile can be tried in a dry run, and everything else ends with the error
that an empty machine causes. -/

namespace RadarProfile.Console

/-! ## Fetching -/

/-- The variables that a command line looks at. -/
def environmentFor (g : Grammar) : IO Environment := do
  let names := g.variableRows.filterMap fun (_, variableName, _) => variableName
  let found ← names.mapM fun name => do
    return (name, (← IO.getEnv (String.ofList name)).map String.toList)
  return fun name => (found.find? fun entry => entry.1 == name).bind (·.2)

def faultOf : IO.Error → Fault
  | .alreadyExists _ code _ | .otherError code _ | .resourceBusy code _
  | .resourceVanished code _ | .unsupportedOperation code _ | .hardwareFault code _
  | .unsatisfiedConstraints code _ | .illegalOperation code _ | .protocolError code _
  | .timeExpired code _ | .interrupted _ code _ | .noFileOrDirectory _ code _
  | .invalidArgument _ code _ | .permissionDenied _ code _ | .resourceExhausted _ code _
  | .inappropriateType _ code _ | .noSuchThing _ code _ => .system code.toNat
  | .unexpectedEof => .described "unexpected end of file".toList
  | .userError text => .described text.toList

/-- Opens a file and reads it. What can be opened and not read, such as a directory, is a
stream that fails. -/
def openFile (path : Text) : IO (Except Fault ByteStream) := do
  match ← (IO.FS.Handle.mk (String.ofList path) .read).toBaseIO with
  | .error e => return .error (faultOf e)
  | .ok handle =>
    match ← handle.readBinToEnd.toBaseIO with
    | .ok bytes => return .ok (.ofBytes bytes.toList)
    | .error e => return .ok (.stuck (faultOf e))

/-- A machine with a single file that has been fetched, without ports and network. -/
def surroundings (file : Except Fault ByteStream) : Surroundings where
  openFile _ := file
  ports _ := .error (Fault.wording 19)
  network := .absent

/-! ## Running -/

def configure (words : List Text) : IO Nat := do
  let environment ← environmentFor ConfigureOptions.grammar
  let file ← match ConfigureOptions.parse environment words with
    | .ok o => openFile o.config
    | .error _ => pure (.error .noSuchFile)
  let done := configureMain (surroundings file) environment words
  for record in done.shown do
    IO.println (String.ofList (record.level.name ++ ' ' :: record.text))
  return done.status

def forward (words : List Text) : IO Nat := do
  let environment ← environmentFor ForwardOptions.grammar
  let done := forwardMain (surroundings (.error .noSuchFile)) environment words
  IO.print (String.ofList done.printed)
  return done.status

end RadarProfile.Console

/-- Runs the program that the first word names. -/
def main (words : List String) : IO UInt32 := do
  let status ← match words with
    | "configure" :: rest => RadarProfile.Console.configure (rest.map String.toList)
    | "forward" :: rest => RadarProfile.Console.forward (rest.map String.toList)
    | _ => pure 2
  return UInt32.ofNat status
