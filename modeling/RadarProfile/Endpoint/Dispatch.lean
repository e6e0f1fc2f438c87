import RadarProfile.Endpoint.Basic

set_option autoImplicit false

/-! # Dispatching a command

A command is sent, and its response is looked through for the success marker. A response
without the marker is followed by one more attempt; a fault in delivery is not, on either
attempt. -/

namespace RadarProfile

/-- The text that a sensor's response holds if it accepted a command. -/
def successMarker : Text := "Done".toList

def attemptLimit : Nat := 2

structure Outcome where
  attempts : Nat
  accepted : Bool
  response : Text
deriving DecidableEq

structure Dispatched (σ : Type) where
  result : Except Error Outcome
  state : σ
  chronicle : Chronicle

namespace Endpoint

/-- What the `attempt`-th send of a command adds to the chronicle before its response is
looked at. -/
def opening (command : Text) (attempt : Nat) (notes : List Note) : Chronicle :=
  .noted (.attempted command attempt) :: .sent command :: notes.map .noted

/-- Sends a command for the `attempt`-th time, with `spare` further attempts in reserve. -/
def deliver {σ : Type} (endpoint : Endpoint σ) (marker command : Text) :
    Nat → Nat → σ → Dispatched σ
  | attempt, spare, state =>
    let sent := endpoint.send state command
    let opened := opening command attempt sent.notes
    match sent.response with
    -- a fault is final, whatever is in reserve
    | .error fault => ⟨.error (.delivery command fault), sent.state, opened⟩
    | .ok response =>
      if Text.occursIn marker response then
        ⟨.ok ⟨attempt, true, response⟩, sent.state,
          opened ++ [.noted (.accepted command)]⟩
      else match spare with
        | 0 =>
          ⟨.ok ⟨attempt, false, response⟩, sent.state,
            opened ++ [.noted (.refused command marker response true)]⟩
        | spare + 1 =>
          let retried := deliver endpoint marker command (attempt + 1) spare sent.state
          ⟨retried.result, retried.state,
            opened ++ .noted (.refused command marker response false) ::
              retried.chronicle⟩
termination_by structural _ spare => spare

/-- Sends a command until it is accepted or the attempts are used up. -/
def dispatch {σ : Type} (endpoint : Endpoint σ) (marker command : Text) (state : σ) :
    Dispatched σ :=
  endpoint.deliver marker command 1 (attemptLimit - 1) state

end Endpoint

end RadarProfile
