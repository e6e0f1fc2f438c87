import Mathlib.Algebra.GroupWithZero.Nat
import RadarProfile.Proofs.Dispatch
import RadarProfile.Run

set_option autoImplicit false

/-! # What a run is made of

A run carries out one line after the other. `Endpoint.Performs` says, by the answers of the
endpoint alone, that lines are carried out, and which turns that takes: one for each
command, with the number of its sends and the parameters it gives. `Endpoint.StopsAt` says
that an item ends the run. Every list of items is carried out to its end, or up to an item
that ends the run (`performs_or_stops`), and either way the result of the run, the state of
the endpoint and the deeds are known (`run_of_performs`, `run_of_stopsAt`). The store has no
part in any of this. -/

namespace RadarProfile

/-! ## Turns -/

/-- What one command came to: how often it was sent, and the parameters it gave. -/
structure Turn where
  command : Text
  sends : Nat
  parameters : List Parameter
deriving DecidableEq

/-- The deeds of a turn: first the sends, then the writes. -/
def Turn.deeds (turn : Turn) : List Deed :=
  List.replicate turn.sends (.send turn.command) ++ turn.parameters.map .write

/-- The totals of turns, taken between so many lines without a command. -/
def Summary.ofTurns (skipped : Nat) (turns : List Turn) : Summary where
  commands := turns.length
  skipped := skipped
  parameters := (turns.flatMap Turn.parameters).length
  antennas := (turns.map fun turn => antennasOf turn.command).sum

def skippedIn (lines : List Line) : Nat := lines.countP fun line => line.command?.isNone

theorem filterMap_command?_writes (parameters : List Parameter) :
    (parameters.map Deed.write).filterMap Deed.command? = [] := by
  induction parameters with
  | nil => rfl
  | cons parameter rest ih => exact ih

theorem filterMap_command?_sends (commands : List Text) :
    (commands.map Deed.send).filterMap Deed.command? = commands := by
  induction commands with
  | nil => rfl
  | cons command rest ih => exact congrArg (command :: ·) ih

theorem filterMap_parameter?_writes (parameters : List Parameter) :
    (parameters.map Deed.write).filterMap Deed.parameter? = parameters := by
  induction parameters with
  | nil => rfl
  | cons parameter rest ih => exact congrArg (parameter :: ·) ih

theorem filterMap_parameter?_sends (commands : List Text) :
    (commands.map Deed.send).filterMap Deed.parameter? = [] := by
  induction commands with
  | nil => rfl
  | cons command rest ih => exact ih

theorem Turn.filterMap_command?_deeds (turn : Turn) :
    turn.deeds.filterMap Deed.command? = List.replicate turn.sends turn.command := by
  rw [Turn.deeds, List.filterMap_append, filterMap_command?_writes, List.append_nil,
    ← List.map_replicate, filterMap_command?_sends]

theorem Turn.filterMap_parameter?_deeds (turn : Turn) :
    turn.deeds.filterMap Deed.parameter? = turn.parameters := by
  rw [Turn.deeds, List.filterMap_append, filterMap_parameter?_writes, ← List.map_replicate,
    filterMap_parameter?_sends, List.nil_append]

theorem filterMap_parameter?_turns (turns : List Turn) :
    (turns.flatMap Turn.deeds).filterMap Deed.parameter? =
      turns.flatMap Turn.parameters := by
  induction turns with
  | nil => rfl
  | cons turn rest ih =>
      rw [List.flatMap_cons, List.flatMap_cons, List.filterMap_append, ih,
        turn.filterMap_parameter?_deeds]

theorem Dispatched.Shows.writes_eq {σ : Type} {sent : Dispatched σ} {command : Text}
    {sends : Nat} {error? : Option Error} {after : σ}
    (h : sent.Shows command sends error? after) : sent.chronicle.writes = [] := by
  rw [Chronicle.writes, h.deeds_eq, ← List.map_replicate, filterMap_parameter?_sends]

theorem Endpoint.writes_dispatch {σ : Type} (endpoint : Endpoint σ) (marker command : Text)
    (state : σ) : (endpoint.dispatch marker command state).chronicle.writes = [] := by
  rcases endpoint.accepts_or_fails marker command state with
    ⟨sends, after, h⟩ | ⟨sends, error, after, h⟩
  · exact (dispatch_of_accepts h).writes_eq
  · exact (dispatch_of_fails h).writes_eq

/-! ## Retries -/

/-- `WithRetries dispatched sent`: what is sent are the commands dispatched, in their order,
each of them once or twice in a row. -/
inductive WithRetries : List Text → List Text → Prop where
  | nil : WithRetries [] []
  | once {command : Text} {dispatched sent : List Text} (h : WithRetries dispatched sent) :
      WithRetries (command :: dispatched) (command :: sent)
  | twice {command : Text} {dispatched sent : List Text} (h : WithRetries dispatched sent) :
      WithRetries (command :: dispatched) (command :: command :: sent)

namespace WithRetries

theorem append {dispatched dispatched' sent sent' : List Text}
    (h : WithRetries dispatched sent) (h' : WithRetries dispatched' sent') :
    WithRetries (dispatched ++ dispatched') (sent ++ sent') := by
  induction h with
  | nil => exact h'
  | once _ ih => exact .once ih
  | twice _ ih => exact .twice ih

theorem replicate {sends : Nat} (command : Text) (h : sends = 1 ∨ sends = 2) :
    WithRetries [command] (List.replicate sends command) := by
  rcases h with rfl | rfl
  · exact .once .nil
  · exact .twice .nil

theorem of_turns {turns : List Turn} (h : ∀ turn ∈ turns, turn.sends = 1 ∨ turn.sends = 2) :
    WithRetries (turns.map Turn.command)
      ((turns.flatMap Turn.deeds).filterMap Deed.command?) := by
  induction turns with
  | nil => exact .nil
  | cons turn rest ih =>
      have hrest := ih fun other hother => h other (List.mem_cons_of_mem _ hother)
      rw [List.flatMap_cons, List.filterMap_append, turn.filterMap_command?_deeds]
      exact (replicate turn.command (h turn List.mem_cons_self)).append hrest

end WithRetries

namespace Endpoint

variable {σ : Type}

/-- `endpoint.Performs marker lines state turns after`: the lines are carried out one after
the other in `turns`, and the endpoint comes from `state` to `after`. -/
inductive Performs (endpoint : Endpoint σ) (marker : Text) :
    List Line → σ → List Turn → σ → Prop where
  | nil {state : σ} : Performs endpoint marker [] state [] state
  /-- A line without a command is passed over. -/
  | passOver {line : Line} {rest : List Line} {state after : σ} {turns : List Turn}
      (silent : line.command? = none)
      (performed : Performs endpoint marker rest state turns after) :
      Performs endpoint marker (line :: rest) state turns after
  /-- A command is accepted, and all its parameters can be converted. -/
  | turn {line : Line} {rest : List Line} {command : Text} {sends : Nat}
      {parameters : List Parameter} {state between after : σ} {turns : List Turn}
      (spoken : line.command? = some command)
      (accepted : endpoint.Accepts marker command state sends between)
      (converted : parametersOf command = .ok parameters)
      (performed : Performs endpoint marker rest between turns after) :
      Performs endpoint marker (line :: rest) state
        (⟨command, sends, parameters⟩ :: turns) after

/-- `endpoint.StopsAt marker state item sent error after`: the item ends a run with `error`
after the sends `sent`, which bring the endpoint from `state` to `after`. -/
inductive StopsAt (endpoint : Endpoint σ) (marker : Text) (state : σ) :
    Item → List Text → Error → σ → Prop where
  /-- The line could not be read. -/
  | unreadable {fault : Fault} :
      StopsAt endpoint marker state (.error fault) [] (.reading fault) state
  /-- The command was not delivered, or not accepted. -/
  | givenUp {line : Line} {command : Text} {sends : Nat} {error : Error} {after : σ}
      (spoken : line.command? = some command)
      (failed : endpoint.Fails marker command state sends error after) :
      StopsAt endpoint marker state (.ok line) (List.replicate sends command) error after
  /-- The command was accepted, but one of its tokens could not be converted. -/
  | malformed {line : Line} {command : Text} {sends : Nat} {fault : FieldError} {after : σ}
      (spoken : line.command? = some command)
      (accepted : endpoint.Accepts marker command state sends after)
      (refused : parametersOf command = .error fault) :
      StopsAt endpoint marker state (.ok line) (List.replicate sends command)
        (.conversion fault) after

/-- **Nothing else can happen**: the items are carried out to the end, or up to an item
that ends the run. -/
theorem performs_or_stops (endpoint : Endpoint σ) (marker : Text) (items : List Item)
    (state : σ) :
    (∃ lines turns after, items = lines.map .ok ∧
        endpoint.Performs marker lines state turns after) ∨
      ∃ lines item rest turns mid sent error after, items = lines.map .ok ++ item :: rest ∧
        endpoint.Performs marker lines state turns mid ∧
        endpoint.StopsAt marker mid item sent error after := by
  -- each item is passed over, gives a turn from which the rest goes on, or ends the run
  induction items generalizing state with
  | nil => exact Or.inl ⟨[], [], state, rfl, .nil⟩
  | cons item rest ih =>
      cases item with
      | error fault =>
          exact Or.inr ⟨[], _, rest, [], state, _, _, state, rfl, .nil, .unreadable⟩
      | ok line =>
          cases hspoken : line.command? with
          | none =>
              rcases ih state with ⟨lines, turns, after, rfl, hrest⟩ |
                ⟨lines, item, tail, turns, mid, sent, error, after, rfl, hrest, hstop⟩
              · exact Or.inl ⟨line :: lines, turns, after, rfl, .passOver hspoken hrest⟩
              · exact Or.inr ⟨line :: lines, item, tail, turns, mid, sent, error, after, rfl,
                  .passOver hspoken hrest, hstop⟩
          | some command =>
              rcases endpoint.accepts_or_fails marker command state with
                ⟨sends, between, haccepted⟩ | ⟨sends, error, after, hfailed⟩
              · -- accepted commands still end the run if a token is malformed
                cases hparameters : parametersOf command with
                | error fault =>
                    exact Or.inr ⟨[], _, rest, [], state, _, _, between, rfl, .nil,
                      .malformed hspoken haccepted hparameters⟩
                | ok parameters =>
                    rcases ih between with ⟨lines, turns, after, rfl, hrest⟩ |
                      ⟨lines, item, tail, turns, mid, sent, error, after, rfl, hrest, hstop⟩
                    · exact Or.inl ⟨line :: lines, _, after, rfl,
                        .turn hspoken haccepted hparameters hrest⟩
                    · exact Or.inr ⟨line :: lines, item, tail, _, mid, sent, error, after,
                        rfl, .turn hspoken haccepted hparameters hrest, hstop⟩
              · exact Or.inr ⟨[], _, rest, [], state, _, error, after, rfl, .nil,
                  .givenUp hspoken hfailed⟩

theorem take_one_replicate {sends : Nat} {command : Text} (h : sends = 1 ∨ sends = 2) :
    (List.replicate sends command).take 1 = [command] := by
  rcases h with rfl | rfl
  · rfl
  · rfl

theorem Performs.of_append {endpoint : Endpoint σ} {marker : Text} {first rest : List Line}
    {state after : σ} {turns : List Turn}
    (h : endpoint.Performs marker (first ++ rest) state turns after) :
    ∃ turns' mid, endpoint.Performs marker first state turns' mid := by
  induction first generalizing state turns with
  | nil => exact ⟨[], state, .nil⟩
  | cons line first ih =>
      cases h with
      | passOver silent performed =>
          obtain ⟨turns', mid, h'⟩ := ih performed
          exact ⟨turns', mid, .passOver silent h'⟩
      | turn spoken accepted converted performed =>
          obtain ⟨turns', mid, h'⟩ := ih performed
          exact ⟨_, mid, .turn spoken accepted converted h'⟩

/-- Lines that are carried out one part after the other are carried out. -/
theorem Performs.append {endpoint : Endpoint σ} {marker : Text} {first rest : List Line}
    {state mid after : σ} {turns turns' : List Turn}
    (h : endpoint.Performs marker first state turns mid)
    (h' : endpoint.Performs marker rest mid turns' after) :
    endpoint.Performs marker (first ++ rest) state (turns ++ turns') after := by
  induction h with
  | nil => exact h'
  | passOver silent _ ih => exact .passOver silent (ih h')
  | turn spoken accepted converted _ ih => exact .turn spoken accepted converted (ih h')

/-- Each turn sends its command once or twice, and has all the parameters of the command. -/
theorem Performs.of_mem_turns {endpoint : Endpoint σ} {marker : Text} {lines : List Line}
    {state after : σ} {turns : List Turn}
    (h : endpoint.Performs marker lines state turns after) {turn : Turn}
    (hturn : turn ∈ turns) :
    (turn.sends = 1 ∨ turn.sends = 2) ∧ parametersOf turn.command = .ok turn.parameters := by
  induction h with
  | nil => exact absurd hturn List.not_mem_nil
  | passOver _ _ ih => exact ih hturn
  | turn _ accepted converted _ ih =>
      rcases List.mem_cons.mp hturn with rfl | hturn
      · exact ⟨accepted.sends_eq, converted⟩
      · exact ih hturn

/-- The sends of an item that ends a run are those of one dispatch, or none. -/
theorem StopsAt.withRetries {endpoint : Endpoint σ} {marker : Text} {item : Item}
    {sent : List Text} {error : Error} {state after : σ}
    (h : endpoint.StopsAt marker state item sent error after) :
    WithRetries (sent.take 1) sent := by
  cases h with
  | unreadable => exact .nil
  | givenUp _ failed =>
      rw [take_one_replicate failed.sends_eq]
      exact .replicate _ failed.sends_eq
  | malformed _ accepted _ =>
      rw [take_one_replicate accepted.sends_eq]
      exact .replicate _ accepted.sends_eq

/-- The commands of the turns are those of the lines. -/
theorem Performs.commands {endpoint : Endpoint σ} {marker : Text} {lines : List Line}
    {state after : σ} {turns : List Turn}
    (h : endpoint.Performs marker lines state turns after) :
    turns.map Turn.command = lines.filterMap Line.command? := by
  induction h with
  | nil => rfl
  | passOver silent _ ih => rw [List.filterMap_cons_none silent, ih]
  | turn spoken _ _ _ ih => rw [List.filterMap_cons_some spoken, List.map_cons, ih]

end Endpoint

end RadarProfile
