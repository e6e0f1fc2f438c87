import RadarProfile.Options.Tables
import RadarProfile.Program.Basic

set_option autoImplicit false

/-! # Forwarding one command

The words of the command are joined by spaces and sent to the service. Without a retry the
program prints whatever response comes. With one it dispatches the command as a
configuration would, prints the last response, and succeeds only if that response holds
the success marker. -/

namespace RadarProfile

/-- What the program comes to: its exit status, what it prints, and what was received
outside. -/
structure ForwardExit where
  status : Nat
  printed : Text
  received : List Receipt

namespace ForwardOptions

def payload (o : ForwardOptions) : Text := Text.joinWithSpaces o.command

def sendOnce (o : ForwardOptions) (reached : Option Service) : ForwardExit :=
  let sent := (Service.endpoint o.service).send reached o.payload
  match sent.response with
  | .ok response => ⟨0, response ++ ['\n'], Service.receipts sent.state⟩
  | .error _ => ⟨1, [], Service.receipts sent.state⟩

/-- Sends the command, and once more if its response lacks the success marker. -/
def sendRetrying (o : ForwardOptions) (reached : Option Service) : ForwardExit :=
  let sent := (Service.endpoint o.service).dispatch successMarker o.payload reached
  match sent.result with
  | .ok outcome =>
    ⟨if outcome.accepted then 0 else 1, outcome.response ++ ['\n'],
      Service.receipts sent.state⟩
  | .error _ => ⟨1, [], Service.receipts sent.state⟩

/-- Opens the session and sends the command. -/
def main (o : ForwardOptions) (surroundings : Surroundings) : ForwardExit :=
  match o.session.openIn surroundings.network with
  | .error _ => ⟨1, [], []⟩
  | .ok reached => if o.retry then o.sendRetrying reached else o.sendOnce reached

end ForwardOptions

def forwardMain (surroundings : Surroundings) (environment : Environment)
    (words : List Text) : ForwardExit :=
  match ForwardOptions.parse environment words with
  | .error e => ⟨e.exitStatus, [], []⟩
  | .ok o => o.main surroundings

end RadarProfile
