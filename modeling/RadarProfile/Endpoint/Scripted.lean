import RadarProfile.Endpoint.Dispatch

set_option autoImplicit false

/-! # Scripted endpoints

An endpoint that plays back a list of replies, one for each send, and accepts every
command once the list is used up. It stands in for a sensor whose behaviour is known
beforehand. -/

namespace RadarProfile.Scripted

abbrev Reply := Except DeliveryFault Text

/-- The response of a sensor that accepts a command: the command itself, the success
marker and the prompt, each on a line of its own. -/
def acceptance (command : Text) : Text :=
  command ++ '\n' :: successMarker ++ "\nmmwDemo:/>".toList

/-- The endpoint whose state is the list of replies still to come; `ready` is what waiting
for it finds. -/
def endpoint (ready : Bool) : Endpoint (List Reply) where
  send replies command :=
    match replies with
    | [] => ⟨.ok (acceptance command), [], []⟩
    | reply :: rest => ⟨reply, [], rest⟩
  awaitReady _ _ := ⟨ready, []⟩

end RadarProfile.Scripted
