import RadarProfile.Endpoint.Serial
import RadarProfile.Options.Scan

set_option autoImplicit false

/-! # The command lines of the two programs

One program configures the sensor from a profile; the other forwards a single command.
They share the options of the session. A value on the command line counts before one in a
variable, and that before the default. -/

namespace RadarProfile

def defaultService : Text := "mmWaveCommSrv/mmWaveCLI".toList

def defaultNamespace : Text := "mmWave_Manager".toList

def greatest64 : Nat := 18446744073709551615

def greatest32 : Nat := 4294967295

/-- An option that occurs once and has only a long name, and a variable that is named. -/
def OptionRow.withVariable (key : Key) (long variableName : String) (kind : ValueKind) :
    OptionRow :=
  ⟨key, long.toList, none, false, some variableName.toList, kind⟩

/-- An option that occurs once and has a long name and its first letter, and no
variable. -/
def OptionRow.withLetter (key : Key) (long : String) (kind : ValueKind) : OptionRow :=
  ⟨key, long.toList, long.toList.head?, false, none, kind⟩

namespace SessionOptions

def rows : List OptionRow :=
  [.withVariable .mode "mode" "MODE" .mode,
   { OptionRow.withVariable .connect "connect" "CONNECT" .text with repeats := true },
   { OptionRow.withVariable .listen "listen" "LISTEN" .text with repeats := true },
   .withVariable .noMulticastScouting "no-multicast-scouting" "NO_MULTICAST_SCOUTING"
     .switch]

def ofGiven (given : List Given) : SessionOptions where
  mode := Settings.mode given .mode .peer
  connect := Settings.texts given .connect
  listen := Settings.texts given .listen
  noMulticastScouting := Settings.switch given .noMulticastScouting

end SessionOptions

/-! ## Configuring -/

/-- The options of the program that configures the sensor. Timeouts are in
milliseconds. -/
structure ConfigureOptions where
  config : Text
  service : Text
  namespaceName : Text
  successMarker : Text
  waitTimeout : Nat
  queryTimeout : Nat
  serial : Option Text
  baud : Nat
  dryRun : Bool
  logLevel : LevelFilter
  profiler : Bool
  session : SessionOptions
deriving DecidableEq

namespace ConfigureOptions

def grammar : Grammar where
  operand := .single .config (some "MMWAVE_CONFIG".toList) .path
  rows :=
    [.withVariable .service "service" "SERVICE" .text,
     .withVariable .namespaceName "namespace" "NAMESPACE" .text,
     .withVariable .successMarker "success-marker" "SUCCESS_MARKER" .text,
     .withVariable .waitTimeout "wait-timeout" "WAIT_TIMEOUT" (.natural greatest64),
     .withVariable .queryTimeout "query-timeout" "QUERY_TIMEOUT" (.natural greatest64),
     .withVariable .serial "serial" "SERIAL" .text,
     .withVariable .baud "baud" "BAUD" (.integer greatest32),
     .withVariable .dryRun "dry-run" "DRY_RUN" .switch,
     .withVariable .logLevel "rust-log" "RUST_LOG" .level,
     .withVariable .profiler "tracy" "TRACY" .switch] ++ SessionOptions.rows

def ofGiven (given : List Given) : ConfigureOptions where
  config := (Settings.text? given .config).getD []
  service := (Settings.text? given .service).getD defaultService
  namespaceName := (Settings.text? given .namespaceName).getD defaultNamespace
  successMarker := (Settings.text? given .successMarker).getD RadarProfile.successMarker
  waitTimeout := Settings.number given .waitTimeout 100000
  queryTimeout := Settings.number given .queryTimeout 30000
  serial := Settings.text? given .serial
  baud := Settings.number given .baud Serial.usualBaud
  dryRun := Settings.switch given .dryRun
  logLevel := Settings.level given .logLevel (.upTo .info)
  profiler := Settings.switch given .profiler
  session := .ofGiven given

def parse (environment : Environment) (words : List Text) :
    Except UsageError ConfigureOptions :=
  (grammar.parse environment words).map ofGiven

end ConfigureOptions

/-! ## Forwarding -/

/-- The options of the program that forwards one command. The timeout is in
milliseconds. -/
structure ForwardOptions where
  service : Text
  timeout : Nat
  retry : Bool
  session : SessionOptions
  command : List Text
deriving DecidableEq

namespace ForwardOptions

def grammar : Grammar where
  operand := .command .command
  rows :=
    [.withLetter .service "service" .text,
     .withLetter .timeout "timeout" (.natural greatest64),
     .withLetter .retry "retry" .switch] ++ SessionOptions.rows

def ofGiven (given : List Given) : ForwardOptions where
  service := (Settings.text? given .service).getD defaultService
  timeout := Settings.number given .timeout 30000
  retry := Settings.switch given .retry
  session := .ofGiven given
  command := Settings.texts given .command

def parse (environment : Environment) (words : List Text) :
    Except UsageError ForwardOptions :=
  (grammar.parse environment words).map ofGiven

end ForwardOptions

end RadarProfile
