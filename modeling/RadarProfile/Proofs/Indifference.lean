import RadarProfile.Proofs.Aftermath

set_option autoImplicit false

/-! # The store has no say in a run

A run hands values to its store and never asks what became of them. So what a run does can
be written down before any store is chosen, as a list of acts: commands to send, parameters
to publish, and notes. `Aftermath.IsBlind` says of an action that this is so: there is one
result, one state of the endpoint and one list of acts, and with any store the action is
that list carried out (`Store.carryOut`). It holds of each step of a run and is kept by
`Aftermath.andThen`, hence of the run (`run_isBlind`). Two stores see the same run and can
only answer it differently (`run_same_for_stores`). -/

namespace RadarProfile

/-! ## Acts -/

/-- One act of a run, as it stands before a store has answered it. -/
inductive Act where
  | send (command : Text)
  | publish (parameter : Parameter)
  | note (note : Note)
deriving DecidableEq

namespace Act

def deed? : Act → Option Deed
  | send command => some (.send command)
  | publish parameter => some (.write parameter)
  | note _ => none

def ofDeed : Deed → Act
  | .send command => .send command
  | .write parameter => .publish parameter

/-- The act of an entry in which no store has a part. -/
def ofEntry? : Entry → Option Act
  | .sent command => some (.send command)
  | .noted remark => some (.note remark)
  | .wrote _ _ _ => none

end Act

namespace Store

variable {τ : Type}

/-- Carries out acts with a store, which is asked for nothing but to take what is
published. -/
def carryOut (store : Store τ) : List Act → τ → Published τ
  | [], stored => ⟨stored, []⟩
  | .send command :: rest, stored =>
    let others := store.carryOut rest stored
    ⟨others.state, .sent command :: others.chronicle⟩
  | .note note :: rest, stored =>
    let others := store.carryOut rest stored
    ⟨others.state, .noted note :: others.chronicle⟩
  | .publish parameter :: rest, stored =>
    let first := store.publish parameter stored
    let others := store.carryOut rest first.state
    ⟨others.state, first.chronicle ++ others.chronicle⟩

variable (store : Store τ)

theorem carryOut_append (acts acts' : List Act) (stored : τ) :
    store.carryOut (acts ++ acts') stored =
      let first := store.carryOut acts stored
      let others := store.carryOut acts' first.state
      ⟨others.state, first.chronicle ++ others.chronicle⟩ := by
  induction acts generalizing stored with
  | nil => rfl
  | cons act rest ih =>
      cases act with
      | send command => simp only [List.cons_append, carryOut, ih]
      | note note => simp only [List.cons_append, carryOut, ih]
      | publish parameter => simp only [List.cons_append, carryOut, ih, List.append_assoc]

theorem carryOut_map_publish (parameters : List Parameter) (stored : τ) :
    store.carryOut (parameters.map .publish) stored = store.publishAll parameters stored := by
  induction parameters generalizing stored with
  | nil => rfl
  | cons parameter rest ih => simp only [List.map_cons, carryOut, publishAll, ih]

/-- What was done without the store is done again, whatever the store is. -/
theorem carryOut_of_no_writes {c : Chronicle} (h : c.writes = []) (stored : τ) :
    store.carryOut (c.filterMap Act.ofEntry?) stored = ⟨stored, c⟩ := by
  induction c with
  | nil => rfl
  | cons entry rest ih =>
      cases entry with
      | sent command =>
          have hrest : store.carryOut (rest.filterMap Act.ofEntry?) stored = ⟨stored, rest⟩ :=
            ih h
          simp only [List.filterMap_cons, Act.ofEntry?, carryOut, hrest]
      | noted note =>
          have hrest : store.carryOut (rest.filterMap Act.ofEntry?) stored = ⟨stored, rest⟩ :=
            ih h
          simp only [List.filterMap_cons, Act.ofEntry?, carryOut, hrest]
      | wrote name value taken =>
          -- a write would be one of the writes
          cases h

theorem carryOut_map_note (notes : List Note) (stored : τ) :
    store.carryOut (notes.map .note) stored = ⟨stored, notes.map .noted⟩ := by
  induction notes with
  | nil => rfl
  | cons note rest ih => rw [List.map_cons, carryOut, ih, List.map_cons]

/-- **The deeds are those of the acts**, whatever the store answers. -/
theorem deeds_carryOut (acts : List Act) (stored : τ) :
    (store.carryOut acts stored).chronicle.deeds = acts.filterMap Act.deed? := by
  induction acts generalizing stored with
  | nil => rfl
  | cons act rest ih =>
      cases act with
      | send command =>
          simp only [carryOut, Chronicle.deeds_sent, ih, List.filterMap_cons, Act.deed?]
      | note note =>
          simp only [carryOut, Chronicle.deeds_noted, ih, List.filterMap_cons, Act.deed?]
      | publish parameter =>
          simp only [carryOut, Chronicle.deeds_append, deeds_publish, ih, List.filterMap_cons,
            Act.deed?, List.singleton_append]

/-- Notes have no part in what becomes of the store, and none in the effects. -/
theorem carryOut_ofDeeds (acts : List Act) (stored : τ) :
    (store.carryOut acts stored).state =
        (store.carryOut ((acts.filterMap Act.deed?).map .ofDeed) stored).state ∧
      (store.carryOut acts stored).chronicle.effects =
        (store.carryOut ((acts.filterMap Act.deed?).map .ofDeed) stored).chronicle.effects := by
  induction acts generalizing stored with
  | nil => exact ⟨rfl, rfl⟩
  | cons act rest ih =>
      cases act with
      | send command => exact ⟨(ih stored).1, congrArg (Entry.sent command :: ·) (ih stored).2⟩
      | note note => exact ih stored
      | publish parameter =>
          obtain ⟨hstate, heffects⟩ := ih (store.publish parameter stored).state
          refine ⟨hstate, ?_⟩
          simp only [List.filterMap_cons, Act.deed?, List.map_cons, Act.ofDeed, carryOut,
            Chronicle.effects, List.filter_append] at heffects ⊢
          rw [heffects]

/-- **Acts with the same deeds** do the same to the store and have the same effects. -/
theorem carryOut_congr {acts acts' : List Act}
    (h : acts.filterMap Act.deed? = acts'.filterMap Act.deed?) (stored : τ) :
    (store.carryOut acts stored).state = (store.carryOut acts' stored).state ∧
      (store.carryOut acts stored).chronicle.effects =
        (store.carryOut acts' stored).chronicle.effects := by
  rw [(store.carryOut_ofDeeds acts stored).1, (store.carryOut_ofDeeds acts stored).2, h,
    ← (store.carryOut_ofDeeds acts' stored).1, ← (store.carryOut_ofDeeds acts' stored).2]
  exact ⟨rfl, rfl⟩

end Store

/-! ## Actions without a say of the store -/

variable {σ α β : Type}

namespace Aftermath

def ofActs {τ : Type} (store : Store τ) (stored : τ) (result : Except Error α) (after : σ)
    (acts : List Act) : Aftermath σ τ α :=
  ⟨result, after, (store.carryOut acts stored).state, (store.carryOut acts stored).chronicle⟩

/-- An action in which the store has no say: with every store it comes to the same result
and the same endpoint, by the same acts. -/
def IsBlind (action : ∀ τ : Type, Store τ → τ → Aftermath σ τ α) : Prop :=
  ∃ result after acts, ∀ (τ : Type) (store : Store τ) (stored : τ),
    action τ store stored = ofActs store stored result after acts

variable {action : ∀ τ : Type, Store τ → τ → Aftermath σ τ α}

theorem IsBlind.mapResult (f : α → β) (h : IsBlind action) :
    IsBlind fun τ store stored => (action τ store stored).mapResult f := by
  obtain ⟨result, after, acts, haction⟩ := h
  refine ⟨result.map f, after, acts, fun τ store stored => ?_⟩
  dsimp only
  rw [haction]
  rfl

theorem IsBlind.notedBefore (notes : List Note) (h : IsBlind action) :
    IsBlind fun τ store stored => (action τ store stored).notedBefore notes := by
  obtain ⟨result, after, acts, haction⟩ := h
  refine ⟨result, after, notes.map .note ++ acts, fun τ store stored => ?_⟩
  dsimp only
  rw [haction, ofActs, ofActs, Store.carryOut_append, Store.carryOut_map_note]
  rfl

/-- **The rule of sequence**: the acts of the second action follow those of the first. -/
theorem IsBlind.andThen {next : ∀ τ : Type, Store τ → α → σ → τ → Aftermath σ τ β}
    (h : IsBlind action) (hnext : ∀ x state, IsBlind fun τ store => next τ store x state) :
    IsBlind fun τ store stored => (action τ store stored).andThen (next τ store) := by
  obtain ⟨result, after, acts, haction⟩ := h
  cases result with
  | error error =>
      -- the second action is left out, with every store
      refine ⟨.error error, after, acts, fun τ store stored => ?_⟩
      dsimp only
      rw [haction]
      rfl
  | ok x =>
      obtain ⟨result', after', acts', hnext⟩ := hnext x after
      refine ⟨result', after', acts ++ acts', fun τ store stored => ?_⟩
      have hsecond : next τ store x after (store.carryOut acts stored).state =
          ofActs store _ result' after' acts' := hnext τ store _
      dsimp only
      rw [haction, ofActs, Aftermath.andThen, ofActs, Store.carryOut_append]
      simp only [hsecond, ofActs]

end Aftermath

/-! ## The steps of a run -/

namespace Driver

variable (endpoint : Endpoint σ) (marker : Text)

theorem runCommand_isBlind (number : Nat) (text : Text) (state : σ) :
    Aftermath.IsBlind fun _ store =>
      (Driver.mk endpoint store marker).runCommand number text state := by
  have hwrites : Chronicle.writes (.noted (.lineSent number text) ::
      (endpoint.dispatch marker text state).chronicle) = [] :=
    endpoint.writes_dispatch marker text state
  generalize hopened : Entry.noted (.lineSent number text) ::
    (endpoint.dispatch marker text state).chronicle = opened at hwrites
  -- what is said and sent is in `opened`; the store comes in only after it
  cases herror : (endpoint.dispatch marker text state).error? text with
  | some error =>
      refine ⟨.error error, (endpoint.dispatch marker text state).state,
        opened.filterMap Act.ofEntry?, fun τ store stored => ?_⟩
      dsimp only
      rw [runCommand_eq, Aftermath.ofActs, Store.carryOut_of_no_writes _ hwrites]
      simp only [herror, hopened]
  | none =>
      cases hparameters : parametersOf text with
      | error fault =>
          refine ⟨.error (.conversion fault), (endpoint.dispatch marker text state).state,
            opened.filterMap Act.ofEntry?, fun τ store stored => ?_⟩
          dsimp only
          rw [runCommand_eq, Aftermath.ofActs, Store.carryOut_of_no_writes _ hwrites]
          simp only [herror, hparameters, hopened]
      | ok parameters =>
          refine ⟨.ok ⟨1, 0, parameters.length, antennasOf text⟩,
            (endpoint.dispatch marker text state).state,
            opened.filterMap Act.ofEntry? ++ parameters.map .publish, fun τ store stored => ?_⟩
          dsimp only
          rw [runCommand_eq, Aftermath.ofActs, Store.carryOut_append,
            Store.carryOut_of_no_writes _ hwrites]
          simp only [herror, hparameters, hopened, Store.carryOut_map_publish]

theorem runLine_isBlind (line : Line) (state : σ) :
    Aftermath.IsBlind fun _ store =>
      (Driver.mk endpoint store marker).runLine line state := by
  cases hspoken : line.command? with
  | none =>
      refine ⟨.ok ⟨0, 1, 0, 0⟩, state, [.note (.lineIgnored line)], fun τ store stored => ?_⟩
      dsimp only
      rw [runLine, hspoken]
      rfl
  | some command =>
      obtain ⟨result, after, acts, hcommand⟩ :=
        runCommand_isBlind endpoint marker line.number command state
      refine ⟨result, after, acts, fun τ store stored => ?_⟩
      dsimp only
      rw [runLine_of_spoken _ _ _ hspoken]
      exact hcommand τ store stored

theorem runLines_isBlind (isRead : Bool) (items : List Item) (state : σ) :
    Aftermath.IsBlind fun _ store =>
      (Driver.mk endpoint store marker).runLines isRead items state := by
  induction items generalizing state with
  | nil => exact ⟨.ok Summary.zero, state, [], fun _ _ _ => rfl⟩
  | cons item rest ih =>
      cases item with
      | error fault => exact ⟨.error (.reading fault), state, [], fun _ _ _ => rfl⟩
      | ok line =>
          have hfirst := (runLine_isBlind endpoint marker line state).notedBefore
            (readingNotes isRead line)
          have hline := hfirst.andThen fun done state => (ih state).mapResult done.add
          obtain ⟨result, after, acts, hacts⟩ := hline
          refine ⟨result, after, acts, fun τ store stored => ?_⟩
          dsimp only
          rw [runLines_cons]
          exact hacts τ store stored

theorem closeRun_isBlind (done : Summary) (state : σ) :
    Aftermath.IsBlind fun _ store =>
      (Driver.mk endpoint store marker).closeRun done state := by
  refine ⟨.ok ⟨done.commands, done.skipped, done.parameters + 1, done.antennas⟩, state,
    [.publish (antennaTally done.antennas)], fun τ store stored => ?_⟩
  dsimp only
  rw [closeRun, Aftermath.ofActs, Store.carryOut, Store.carryOut, List.append_nil]

/-- The store has no say in a run. -/
theorem run_isBlind (source : Source) (state : σ) :
    Aftermath.IsBlind fun _ store =>
      (Driver.mk endpoint store marker).run source state :=
  (runLines_isBlind endpoint marker source.isRead source.items state).andThen
    (closeRun_isBlind endpoint marker)

/-- **What becomes of the store is settled by the deeds**, and so are the effects. Two runs
with one store that have the same deeds do not differ in either. -/
theorem run_same_of_deeds {τ : Type} (store : Store τ) {source source' : Source} {state : σ}
    {stored : τ}
    (h : ((Driver.mk endpoint store marker).run source state stored).chronicle.deeds =
      ((Driver.mk endpoint store marker).run source' state stored).chronicle.deeds) :
    let run := (Driver.mk endpoint store marker).run source state stored
    let run' := (Driver.mk endpoint store marker).run source' state stored
    run.store = run'.store ∧ run.chronicle.effects = run'.chronicle.effects := by
  intro run run'
  obtain ⟨result, after, acts, hblind⟩ := run_isBlind endpoint marker source state
  obtain ⟨result', after', acts', hblind'⟩ := run_isBlind endpoint marker source' state
  have hrun : run = .ofActs store stored result after acts := hblind τ store stored
  have hrun' : run' = .ofActs store stored result' after' acts' := hblind' τ store stored
  have hdeeds : run.chronicle.deeds = run'.chronicle.deeds := h
  rw [hrun, hrun'] at hdeeds ⊢
  refine store.carryOut_congr ?_ stored
  calc acts.filterMap Act.deed?
      = (store.carryOut acts stored).chronicle.deeds := (store.deeds_carryOut acts stored).symm
    _ = (store.carryOut acts' stored).chronicle.deeds := hdeeds
    _ = acts'.filterMap Act.deed? := store.deeds_carryOut acts' stored

/-! ## Two stores -/

/-- **Two stores see the same run.** Whatever the stores are and answer, the two runs come
to the same result, leave the endpoint in the same state, send the same commands and try
the same writes at the same points between them. Their chronicles are the same acts carried
out: they differ in nothing but what each store does with a parameter that is published to
it, which is to take it, or to refuse it and be complained of. -/
theorem run_same_for_stores {τ τ' : Type} (store : Store τ) (store' : Store τ')
    (source : Source) (state : σ) (stored : τ) (stored' : τ') :
    let run := (Driver.mk endpoint store marker).run source state stored
    let run' := (Driver.mk endpoint store' marker).run source state stored'
    run.result = run'.result ∧ run.endpoint = run'.endpoint ∧
      run.chronicle.sends = run'.chronicle.sends ∧
      run.chronicle.deeds = run'.chronicle.deeds ∧
      ∃ acts : List Act, run.chronicle.deeds = acts.filterMap Act.deed? ∧
        run.chronicle = (store.carryOut acts stored).chronicle ∧
        run'.chronicle = (store'.carryOut acts stored').chronicle := by
  intro run run'
  obtain ⟨result, after, acts, hblind⟩ := run_isBlind endpoint marker source state
  have hrun : run = .ofActs store stored result after acts := hblind τ store stored
  have hrun' : run' = .ofActs store' stored' result after acts := hblind τ' store' stored'
  have hdeeds : run.chronicle.deeds = acts.filterMap Act.deed? := by
    rw [hrun]
    exact store.deeds_carryOut acts stored
  have hdeeds' : run'.chronicle.deeds = acts.filterMap Act.deed? := by
    rw [hrun']
    exact store'.deeds_carryOut acts stored'
  refine ⟨by rw [hrun, hrun']; rfl, by rw [hrun, hrun']; rfl, ?_, hdeeds.trans hdeeds'.symm,
    acts, hdeeds, by rw [hrun]; rfl, by rw [hrun']; rfl⟩
  rw [Chronicle.sends_eq_deeds, Chronicle.sends_eq_deeds, hdeeds, hdeeds']

end Driver

end RadarProfile
