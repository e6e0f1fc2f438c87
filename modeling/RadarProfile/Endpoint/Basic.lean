import RadarProfile.Log

set_option autoImplicit false

/-! # Endpoints and stores

An endpoint takes commands and answers with a response or a fault; a store takes values
under keys and may refuse them. Both carry a state of their own from call to call and may
leave notes in the log. Nothing else is known of them, so whatever is shown for a driver
holds for a sensor behind a service, one behind a serial port, and one that is not there
at all. -/

namespace RadarProfile

/-- What a send leaves behind: the response or the fault, notes, and the state after it. -/
structure Sent (σ : Type) where
  response : Except DeliveryFault Text
  notes : List Note
  state : σ

structure Awaited where
  ready : Bool
  notes : List Note

/-- Something that commands can be sent to. -/
structure Endpoint (σ : Type) where
  /-- Sends one command and waits for what comes back. -/
  send : σ → Text → Sent σ
  /-- Waits up to a number of milliseconds for the endpoint to become available. -/
  awaitReady : σ → Nat → Awaited

/-- An endpoint that is always available: waiting for it ends at once. -/
def Awaited.atOnce : Awaited := ⟨true, []⟩

structure Written (τ : Type) where
  refusal : Option Error
  notes : List Note
  state : τ

structure Store (τ : Type) where
  write : τ → Text → Value → Written τ

/-! ## What a run does, in order -/

/-- One thing that a run does: it sends a command, hands a parameter to the store, which
takes it or not, or leaves a note. -/
inductive Entry where
  | sent (command : Text)
  | wrote (name : Text) (value : Value) (taken : Bool)
  | noted (note : Note)
deriving DecidableEq

/-- Everything that was done, in order. -/
abbrev Chronicle := List Entry

namespace Chronicle

def notes (c : Chronicle) : List Note :=
  c.filterMap fun entry => match entry with
    | .noted note => some note
    | _ => none

def sends (c : Chronicle) : List Text :=
  c.filterMap fun entry => match entry with
    | .sent command => some command
    | _ => none

def effects (c : Chronicle) : Chronicle :=
  c.filter fun entry => match entry with
    | .noted _ => false
    | _ => true

end Chronicle

end RadarProfile
