import RadarProfile.Endpoint.DryRun
import RadarProfile.Options.Tables
import RadarProfile.Program.Basic
import RadarProfile.Run
import RadarProfile.Store.Local

set_option autoImplicit false

/-! # Configuring a sensor

The profile is opened before anything else, so that nobody hears of a profile that is not
there. A dry run needs nothing more. Otherwise a session is opened, and the commands go to
the serial port if one is named, else to the service; parameters are published over the
session in either case. -/

namespace RadarProfile

/-- What a configuration comes to: its result, the notes it left, and what was received
outside. -/
structure Configured where
  result : Except Error Summary
  notes : List Note
  received : List Receipt

/-- Waits for the endpoint of a driver and runs a profile on it. `receipts` says what the
outside has received in a state of the endpoint. -/
def Driver.configure {σ τ : Type} (d : Driver σ τ) (waitTimeout : Nat) (profile : ByteStream)
    (receipts : σ → List Receipt) (state : σ) (stored : τ) : Configured :=
  let waited := d.awaitReady waitTimeout state
  -- the profile is run whether or not the endpoint became ready
  let done := d.run (.ofStream profile) state stored
  ⟨done.result, Chronicle.notes (waited.2 ++ done.chronicle), receipts done.endpoint⟩

namespace ConfigureOptions

def refused (error : Error) (notes : List Note) : Configured := ⟨.error error, notes, []⟩

def dryRunOf (o : ConfigureOptions) (profile : ByteStream) : Configured :=
  let d : Driver Nat Unit :=
    ⟨DryRun.endpoint o.successMarker, Store.logging o.namespaceName, o.successMarker⟩
  d.configure o.waitTimeout profile (fun _ => []) 0 ()

def overPort (o : ConfigureOptions) (surroundings : Surroundings) (path : Text)
    (profile : ByteStream) : Configured :=
  let opening := Note.portOpening path o.baud
  match Serial.openPort surroundings.ports path with
  | .error e => refused e [opening]
  | .ok device =>
    let d : Driver Serial.Device (List Publisher.Put) :=
      ⟨Serial.endpoint o.queryTimeout, Publisher.store o.namespaceName, o.successMarker⟩
    let done := d.configure o.waitTimeout profile Serial.Device.receipts device []
    { done with notes := opening :: done.notes }

def overSession (o : ConfigureOptions) (reached : Option Service) (profile : ByteStream) :
    Configured :=
  let d : Driver (Option Service) (List Publisher.Put) :=
    ⟨Service.endpoint o.service, Publisher.store o.namespaceName, o.successMarker⟩
  d.configure o.waitTimeout profile Service.receipts reached []

/-- A run of an opened profile, by the way that the options choose. -/
def runProfile (o : ConfigureOptions) (surroundings : Surroundings) (profile : ByteStream) :
    Configured :=
  if o.dryRun then o.dryRunOf profile
  -- a session is opened for publishing, whatever way the commands go
  else match o.session.openIn surroundings.network with
    | .error fault => refused (.session fault) []
    | .ok reached =>
      match o.serial with
      | some path => o.overPort surroundings path profile
      | none => o.overSession reached profile

def configure (o : ConfigureOptions) (surroundings : Surroundings) : Configured :=
  -- the profile is opened before anything else
  match surroundings.openFile o.config with
  | .error fault => refused (.opening o.config fault) []
  | .ok profile => o.runProfile surroundings profile

end ConfigureOptions

/-! ## The program -/

structure ConfigureExit where
  status : Nat
  shown : List Record
  received : List Receipt

/-- The program with its options. It shows a note before the run and one after it. -/
def ConfigureOptions.main (o : ConfigureOptions) (surroundings : Surroundings) :
    ConfigureExit :=
  let done := o.configure surroundings
  let (status, closing) := match done.result with
    | .ok summary => (0, Note.configured o.config summary)
    | .error e => (1, Note.failed e)
  let notes := .configuring o.config :: (done.notes ++ [closing])
  ⟨status, (o.logLevel.select notes).map Note.record, done.received⟩

def configureMain (surroundings : Surroundings) (environment : Environment)
    (words : List Text) : ConfigureExit :=
  match ConfigureOptions.parse environment words with
  | .error e => ⟨e.exitStatus, [], []⟩
  | .ok o => o.main surroundings

end RadarProfile
