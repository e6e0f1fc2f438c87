import RadarProfile.Endpoint.Dispatch
import RadarProfile.Line.Reader

set_option autoImplicit false

/-! # Running a profile

A driver sends the commands of a profile line by line, hands the parameters derived from
each accepted command to its store, and at the very end the number of transmit antennas.
The first fault that is fatal ends the run: a line that could not be read, a command that
was not delivered or not accepted, or a token that could not be converted. A parameter
that the store does not take is only noted. -/

namespace RadarProfile

structure Driver (σ τ : Type) where
  endpoint : Endpoint σ
  store : Store τ
  marker : Text

/-- Lines to run. Those of a reader are noted one by one as they are read; ready-made ones
are not. -/
structure Source where
  items : List Item
  isRead : Bool

namespace Source

/-- The lines of a stream. -/
def ofStream (stream : ByteStream) : Source :=
  -- a run looks at no item after the first fault
  ⟨stream.items 1, true⟩

def ofItems (items : List Item) : Source := ⟨items, false⟩

end Source

/-- What an action of a driver leaves behind: its result, the states of the endpoint and of
the store, and what was done. -/
structure Aftermath (σ τ α : Type) where
  result : Except Error α
  endpoint : σ
  store : τ
  chronicle : Chronicle

/-- One action after another. The second is left out if the first failed. -/
def Aftermath.andThen {σ τ α β : Type} (first : Aftermath σ τ α)
    (next : α → σ → τ → Aftermath σ τ β) : Aftermath σ τ β :=
  match first.result with
  | .error e => ⟨.error e, first.endpoint, first.store, first.chronicle⟩
  | .ok a =>
    let second := next a first.endpoint first.store
    ⟨second.result, second.endpoint, second.store, first.chronicle ++ second.chronicle⟩

/-! ## Publishing -/

structure Published (τ : Type) where
  state : τ
  chronicle : Chronicle

namespace Store

/-- Hands one parameter to the store. -/
def publish {τ : Type} (store : Store τ) (parameter : Parameter) (state : τ) :
    Published τ :=
  let written := store.write state parameter.name parameter.value
  -- a refusal has no other effect than a note
  let complaint : Chronicle := match written.refusal with
    | some error => [.noted (.notStored parameter.name error)]
    | none => []
  ⟨written.state,
    .noted (.derived parameter.name parameter.value) ::
      .wrote parameter.name parameter.value written.refusal.isNone ::
      (written.notes.map .noted ++ complaint)⟩

def publishAll {τ : Type} (store : Store τ) : List Parameter → τ → Published τ
  | [], state => ⟨state, []⟩
  | parameter :: rest, state =>
    let first := store.publish parameter state
    let others := store.publishAll rest first.state
    ⟨others.state, first.chronicle ++ others.chronicle⟩

end Store

/-! ## Lines -/

/-- The parameters that the text of a command gives. A text without tokens gives none. -/
def parametersOf (text : Text) : Except FieldError (List Parameter) :=
  match Command.ofText? text with
  | none => .ok []
  | some command => command.parameters

def antennasOf (text : Text) : Nat :=
  match Command.ofText? text with
  | none => 0
  | some command => command.antennas

namespace Driver

variable {σ τ : Type}

/-- Sends the command of a line and publishes what an accepted command gives. -/
def runCommand (d : Driver σ τ) (number : Nat) (text : Text) (state : σ) (stored : τ) :
    Aftermath σ τ Summary :=
  let sent := d.endpoint.dispatch d.marker text state
  let opened := .noted (.lineSent number text) :: sent.chronicle
  match sent.result with
  | .error e => ⟨.error e, sent.state, stored, opened⟩
  | .ok outcome =>
    if outcome.accepted then
      -- nothing is published before all tokens are converted
      match parametersOf text with
      | .error e => ⟨.error (.conversion e), sent.state, stored, opened⟩
      | .ok parameters =>
        let published := d.store.publishAll parameters stored
        ⟨.ok ⟨1, 0, parameters.length, antennasOf text⟩, sent.state, published.state,
          opened ++ published.chronicle⟩
    else
      ⟨.error (.acceptance text outcome.response outcome.attempts), sent.state, stored,
        opened⟩

def runLine (d : Driver σ τ) (line : Line) (state : σ) (stored : τ) :
    Aftermath σ τ Summary :=
  match line.command? with
  | some text => d.runCommand line.number text state stored
  | none => ⟨.ok ⟨0, 1, 0, 0⟩, state, stored, [.noted (.lineIgnored line)]⟩

def readingNote (isRead : Bool) (line : Line) : Chronicle :=
  if isRead then [.noted (.lineRead line)] else []

/-- Runs lines until the first fault, without the antenna tally at the end. -/
def runLines (d : Driver σ τ) (isRead : Bool) :
    List Item → σ → τ → Aftermath σ τ Summary
  | [], state, stored => ⟨.ok Summary.zero, state, stored, []⟩
  | .error fault :: _, state, stored => ⟨.error (.reading fault), state, stored, []⟩
  | .ok line :: rest, state, stored =>
    let first := d.runLine line state stored
    -- that a line was read is noted before anything is done with it
    let noted : Aftermath σ τ Summary :=
      ⟨first.result, first.endpoint, first.store,
        readingNote isRead line ++ first.chronicle⟩
    noted.andThen fun done state stored =>
      let others := d.runLines isRead rest state stored
      ⟨others.result.map done.add, others.endpoint, others.store, others.chronicle⟩

/-- Publishes the antenna tally of the lines that were run. -/
def closeRun (d : Driver σ τ) (done : Summary) (state : σ) (stored : τ) :
    Aftermath σ τ Summary :=
  let published := d.store.publish (antennaTally done.antennas) stored
  -- the tally itself counts as one more parameter
  ⟨.ok ⟨done.commands, done.skipped, done.parameters + 1, done.antennas⟩, state,
    published.state, published.chronicle⟩

/-- Runs all lines of a source and then publishes the antenna tally. -/
def run (d : Driver σ τ) (source : Source) (state : σ) (stored : τ) :
    Aftermath σ τ Summary :=
  (d.runLines source.isRead source.items state stored).andThen d.closeRun

/-- Waits for the endpoint; that it did not become ready is only noted. -/
def awaitReady (d : Driver σ τ) (milliseconds : Nat) (state : σ) : Bool × Chronicle :=
  let awaited := d.endpoint.awaitReady state milliseconds
  let complaint : Chronicle :=
    if awaited.ready then [] else [.noted (.notReady milliseconds)]
  (awaited.ready,
    .noted (.waiting milliseconds) :: (awaited.notes.map .noted ++ complaint))

end Driver

end RadarProfile
