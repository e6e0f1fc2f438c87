import RadarProfile.Endpoint.Scripted
import RadarProfile.Proofs.Turns
import RadarProfile.Store.Local

set_option autoImplicit false

/-! # What a run leaves behind

`Aftermath.Shows` collects what is known of an action of a driver: its result, the state of
the endpoint, its deeds and its dispatches. It is shown for each step of a run and put
together along `Aftermath.andThen`, so that the two theorems at the end give it for a run
whose lines are all carried out, and for one that an item ends. -/

namespace RadarProfile

instance decidableEqExcept {ε α : Type} [DecidableEq ε] [DecidableEq α] :
    DecidableEq (Except ε α)
  | .error a, .error b => decidable_of_iff (a = b) ⟨congrArg _, Except.error.inj⟩
  | .ok a, .ok b => decidable_of_iff (a = b) ⟨congrArg _, Except.ok.inj⟩
  | .error _, .ok _ => isFalse nofun
  | .ok _, .error _ => isFalse nofun

variable {σ τ α β : Type}

/-- What is known of an aftermath. The chronicle begins quietly, so the chronicles of two
actions in a row can be read one after the other. -/
structure Aftermath.Shows (a : Aftermath σ τ α) (result : Except Error α) (after : σ)
    (deeds : List Deed) (dispatches : List Text) : Prop where
  result_eq : a.result = result
  endpoint_eq : a.endpoint = after
  deeds_eq : a.chronicle.deeds = deeds
  dispatches_eq : a.chronicle.dispatches = dispatches
  quiet : a.chronicle.BeginsQuietly

namespace Aftermath

def mapResult (f : α → β) (a : Aftermath σ τ α) : Aftermath σ τ β :=
  ⟨a.result.map f, a.endpoint, a.store, a.chronicle⟩

def notedBefore (notes : List Note) (a : Aftermath σ τ α) : Aftermath σ τ α :=
  ⟨a.result, a.endpoint, a.store, notes.map .noted ++ a.chronicle⟩

namespace Shows

variable {a : Aftermath σ τ α} {result : Except Error α} {after : σ} {deeds : List Deed}
  {dispatches : List Text}

theorem sends_eq (h : a.Shows result after deeds dispatches) :
    a.chronicle.sends = deeds.filterMap Deed.command? := by
  rw [Chronicle.sends_eq_deeds, h.deeds_eq]

theorem writes_eq (h : a.Shows result after deeds dispatches) :
    a.chronicle.writes = deeds.filterMap Deed.parameter? := by
  rw [Chronicle.writes, h.deeds_eq]

theorem mapResult (f : α → β) (h : a.Shows result after deeds dispatches) :
    (a.mapResult f).Shows (result.map f) after deeds dispatches :=
  ⟨congrArg (Except.map f) h.result_eq, h.endpoint_eq, h.deeds_eq, h.dispatches_eq, h.quiet⟩

theorem notedBefore (notes : List Note) (h : a.Shows result after deeds dispatches) :
    (a.notedBefore notes).Shows result after deeds dispatches where
  result_eq := h.result_eq
  endpoint_eq := h.endpoint_eq
  deeds_eq := by
    rw [Aftermath.notedBefore, Chronicle.deeds_append, Chronicle.deeds_map_noted, h.deeds_eq]
    rfl
  dispatches_eq := by
    rw [Aftermath.notedBefore, Chronicle.dispatches_append _ h.quiet,
      Chronicle.dispatches_eq_nil (Chronicle.sends_map_noted notes), h.dispatches_eq]
    rfl
  quiet := (Chronicle.beginsQuietly_map_noted notes).append h.quiet

/-- **The rule of sequence**: deeds and dispatches of the second action follow those of the
first. -/
theorem andThen {x : α} {next : α → σ → τ → Aftermath σ τ β} {result : Except Error β}
    {between after : σ} {deeds' : List Deed} {dispatches' : List Text}
    (hfirst : a.Shows (.ok x) between deeds dispatches)
    (hnext : (next x between a.store).Shows result after deeds' dispatches') :
    (a.andThen next).Shows result after (deeds ++ deeds') (dispatches ++ dispatches') := by
  have heq : a.andThen next = ⟨(next x between a.store).result,
      (next x between a.store).endpoint, (next x between a.store).store,
      a.chronicle ++ (next x between a.store).chronicle⟩ := by
    unfold Aftermath.andThen
    rw [hfirst.result_eq, hfirst.endpoint_eq]
  rw [heq]
  refine ⟨hnext.result_eq, hnext.endpoint_eq, ?_, ?_, hfirst.quiet.append hnext.quiet⟩
  · rw [Chronicle.deeds_append, hfirst.deeds_eq, hnext.deeds_eq]
  · rw [Chronicle.dispatches_append _ hnext.quiet, hfirst.dispatches_eq, hnext.dispatches_eq]

theorem andThen_of_error {next : α → σ → τ → Aftermath σ τ β} {error : Error}
    (h : a.Shows (.error error) after deeds dispatches) :
    (a.andThen next).Shows (.error error) after deeds dispatches := by
  have heq : a.andThen next = ⟨.error error, a.endpoint, a.store, a.chronicle⟩ := by
    unfold Aftermath.andThen
    rw [h.result_eq]
  rw [heq]
  exact ⟨rfl, h.endpoint_eq, h.deeds_eq, h.dispatches_eq, h.quiet⟩

end Shows

/-! ### Algebra of sequences -/

/-- What was done stays done, whatever comes after it. -/
theorem prefix_andThen (a : Aftermath σ τ α) (next : α → σ → τ → Aftermath σ τ β) :
    a.chronicle <+: (a.andThen next).chronicle := by
  rcases a with ⟨error | x, state, stored, chronicle⟩
  · exact List.prefix_rfl
  · exact List.prefix_append _ _

theorem andThen_assoc {γ : Type} (a : Aftermath σ τ α) (f : α → σ → τ → Aftermath σ τ β)
    (g : β → σ → τ → Aftermath σ τ γ) :
    (a.andThen f).andThen g = a.andThen fun x state stored => (f x state stored).andThen g := by
  rcases a with ⟨error | x, state, stored, chronicle⟩
  · rfl
  · simp only [andThen]
    cases (f x state stored).result with
    | error error => rfl
    | ok y => simp only [List.append_assoc]

theorem mapResult_andThen {γ : Type} (a : Aftermath σ τ α) (f : α → β)
    (g : β → σ → τ → Aftermath σ τ γ) :
    (a.mapResult f).andThen g = a.andThen fun x => g (f x) := by
  rcases a with ⟨error | x, state, stored, chronicle⟩
  · rfl
  · rfl

theorem andThen_mapResult {γ : Type} (a : Aftermath σ τ α)
    (f : α → σ → τ → Aftermath σ τ β) (g : β → γ) :
    (a.andThen f).mapResult g =
      a.andThen fun x state stored => (f x state stored).mapResult g := by
  rcases a with ⟨error | x, state, stored, chronicle⟩
  · rfl
  · rfl

theorem mapResult_zero_add (a : Aftermath σ τ Summary) :
    a.mapResult Summary.zero.add = a := by
  rcases a with ⟨error | total, state, stored, chronicle⟩
  · rfl
  · simp only [mapResult, Except.map, Summary.add, Summary.zero, Nat.zero_add]

theorem mapResult_add_add (a : Aftermath σ τ Summary) (first second : Summary) :
    (a.mapResult second.add).mapResult first.add = a.mapResult (first.add second).add := by
  rcases a with ⟨error | total, state, stored, chronicle⟩
  · rfl
  · simp only [mapResult, Except.map, Summary.add, Nat.add_assoc]

end Aftermath

/-! ## Publishing -/

namespace Store

theorem deeds_publish (store : Store τ) (parameter : Parameter) (stored : τ) :
    (store.publish parameter stored).chronicle.deeds = [.write parameter] := by
  rw [publish, Chronicle.deeds_noted, Chronicle.deeds_wrote, Chronicle.deeds_append,
    Chronicle.deeds_map_noted]
  cases (store.write stored parameter.name parameter.value).refusal with
  | none => rfl
  | some error => rfl

theorem deeds_publishAll (store : Store τ) (parameters : List Parameter) (stored : τ) :
    (store.publishAll parameters stored).chronicle.deeds = parameters.map .write := by
  induction parameters generalizing stored with
  | nil => rfl
  | cons parameter rest ih =>
      rw [publishAll, Chronicle.deeds_append, deeds_publish, ih]
      rfl

theorem beginsQuietly_publishAll (store : Store τ) (parameters : List Parameter)
    (stored : τ) : (store.publishAll parameters stored).chronicle.BeginsQuietly := by
  cases parameters with
  | nil => exact Chronicle.beginsQuietly_nil
  | cons parameter rest =>
      rw [publishAll, publish]
      exact Chronicle.beginsQuietly_noted _ _

theorem dispatches_publishAll (store : Store τ) (parameters : List Parameter) (stored : τ) :
    (store.publishAll parameters stored).chronicle.dispatches = [] := by
  apply Chronicle.dispatches_eq_nil
  rw [Chronicle.sends_eq_deeds, deeds_publishAll, filterMap_command?_writes]

theorem publishAll_singleton (store : Store τ) (parameter : Parameter) (stored : τ) :
    store.publishAll [parameter] stored = store.publish parameter stored := by
  rw [publishAll, publishAll, List.append_nil]

end Store

/-! ## One line -/

namespace Driver

variable (d : Driver σ τ)

/-- What a command does to a run, read off its dispatch. -/
theorem runCommand_eq (number : Nat) (text : Text) (state : σ) (stored : τ) :
    d.runCommand number text state stored =
      let sent := d.endpoint.dispatch d.marker text state
      let opened := .noted (.lineSent number text) :: sent.chronicle
      match sent.error? text with
      | some error => ⟨.error error, sent.state, stored, opened⟩
      | none =>
        match parametersOf text with
        | .error fault => ⟨.error (.conversion fault), sent.state, stored, opened⟩
        | .ok parameters =>
          let published := d.store.publishAll parameters stored
          ⟨.ok ⟨1, 0, parameters.length, antennasOf text⟩, sent.state, published.state,
            opened ++ published.chronicle⟩ := by
  unfold runCommand Dispatched.error?
  dsimp only
  rcases (d.endpoint.dispatch d.marker text state).result with error | ⟨_, accepted, _⟩
  · rfl
  · cases accepted with
    | true => rfl
    | false => rfl

variable {d}
variable {command : Text} {sends : Nat} {state after : σ}

theorem runCommand_of_accepts {parameters : List Parameter} (number : Nat) (stored : τ)
    (h : d.endpoint.Accepts d.marker command state sends after)
    (hparameters : parametersOf command = .ok parameters) :
    (d.runCommand number command state stored).Shows
      (.ok ⟨1, 0, parameters.length, antennasOf command⟩) after
      (Turn.deeds ⟨command, sends, parameters⟩) [command] := by
  have hsent := Endpoint.dispatch_of_accepts h
  have hquiet := d.store.beginsQuietly_publishAll parameters stored
  rw [runCommand_eq]
  simp only [hsent.error?_eq, hparameters]
  refine ⟨rfl, hsent.state_eq, ?_, ?_, Chronicle.beginsQuietly_noted _ _⟩
  · show Chronicle.deeds (_ :: (_ ++ _)) = _
    rw [Chronicle.deeds_noted, Chronicle.deeds_append, hsent.deeds_eq,
      Store.deeds_publishAll, Turn.deeds]
  · show Chronicle.dispatches (_ :: _ ++ _) = _
    rw [Chronicle.dispatches_append _ hquiet, Store.dispatches_publishAll, List.append_nil,
      Chronicle.dispatches_noted _ hsent.quiet, hsent.dispatches_eq]

theorem runCommand_of_malformed {fault : FieldError} (number : Nat) (stored : τ)
    (h : d.endpoint.Accepts d.marker command state sends after)
    (hfault : parametersOf command = .error fault) :
    (d.runCommand number command state stored).Shows (.error (.conversion fault)) after
      ((List.replicate sends command).map .send) [command] := by
  have hsent := Endpoint.dispatch_of_accepts h
  rw [runCommand_eq]
  simp only [hsent.error?_eq, hfault]
  refine ⟨rfl, hsent.state_eq, ?_, ?_, Chronicle.beginsQuietly_noted _ _⟩
  · exact hsent.deeds_eq.trans (List.map_replicate ..).symm
  · exact (Chronicle.dispatches_noted _ hsent.quiet).trans hsent.dispatches_eq

theorem runCommand_of_fails {error : Error} (number : Nat) (stored : τ)
    (h : d.endpoint.Fails d.marker command state sends error after) :
    (d.runCommand number command state stored).Shows (.error error) after
      ((List.replicate sends command).map .send) [command] := by
  have hsent := Endpoint.dispatch_of_fails h
  rw [runCommand_eq]
  simp only [hsent.error?_eq]
  refine ⟨rfl, hsent.state_eq, ?_, ?_, Chronicle.beginsQuietly_noted _ _⟩
  · exact hsent.deeds_eq.trans (List.map_replicate ..).symm
  · exact (Chronicle.dispatches_noted _ hsent.quiet).trans hsent.dispatches_eq

/-! ## Lines -/

variable (d)

theorem runLine_of_silent {line : Line} (state : σ) (stored : τ)
    (h : line.command? = none) :
    (d.runLine line state stored).Shows (.ok ⟨0, 1, 0, 0⟩) state [] [] := by
  rw [runLine, h]
  exact ⟨rfl, rfl, rfl, rfl, Chronicle.beginsQuietly_noted _ _⟩

theorem runLine_of_spoken {line : Line} (state : σ) (stored : τ)
    (h : line.command? = some command) :
    d.runLine line state stored = d.runCommand line.number command state stored := by
  rw [runLine, h]

def readingNotes (isRead : Bool) (line : Line) : List Note :=
  if isRead then [.lineRead line] else []

theorem runLines_cons (isRead : Bool) (line : Line) (rest : List Item) (state : σ)
    (stored : τ) :
    d.runLines isRead (.ok line :: rest) state stored =
      ((d.runLine line state stored).notedBefore (readingNotes isRead line)).andThen
        fun done state stored => (d.runLines isRead rest state stored).mapResult done.add := by
  rw [runLines]
  cases isRead with
  | true => rfl
  | false => rfl

/-- **Lines run in two parts**: the totals of the first part are added to those of the
second, which is left out if the first part ends in an error. -/
theorem runLines_append (isRead : Bool) (first rest : List Item) (state : σ) (stored : τ) :
    d.runLines isRead (first ++ rest) state stored =
      (d.runLines isRead first state stored).andThen
        fun done state stored => (d.runLines isRead rest state stored).mapResult done.add := by
  -- the totals of the second part are added last, so the sums have to be regrouped
  induction first generalizing state stored with
  | nil =>
      rw [List.nil_append, runLines, Aftermath.andThen]
      simp only [List.nil_append]
      exact (Aftermath.mapResult_zero_add _).symm
  | cons item first ih =>
      cases item with
      | error fault => rfl
      | ok line =>
          rw [List.cons_append, runLines_cons, runLines_cons, Aftermath.andThen_assoc]
          congr 1
          funext done state stored
          rw [ih, Aftermath.andThen_mapResult, Aftermath.mapResult_andThen]
          congr 1
          funext done' state stored
          exact Aftermath.mapResult_add_add _ done done'

/-- Lines that are carried out take their turns, and nothing else is done. -/
theorem runLines_of_performs (isRead : Bool) {lines : List Line} {turns : List Turn}
    (h : d.endpoint.Performs d.marker lines state turns after) (stored : τ) :
    (d.runLines isRead (lines.map .ok) state stored).Shows
      (.ok (Summary.ofTurns (skippedIn lines) turns)) after (turns.flatMap Turn.deeds)
      (turns.map Turn.command) := by
  -- by induction on how the lines are carried out: each line adds its totals to the rest
  induction h generalizing stored with
  | nil => exact ⟨rfl, rfl, rfl, rfl, Chronicle.beginsQuietly_nil⟩
  | @passOver line rest state after turns silent performed ih =>
      have hline := (d.runLine_of_silent state stored silent).notedBefore
        (readingNotes isRead line)
      have hcount : skippedIn (line :: rest) = skippedIn rest + 1 :=
        List.countP_cons_of_pos (by rw [silent]; rfl)
      have htotal : (Summary.mk 0 1 0 0).add (.ofTurns (skippedIn rest) turns) =
          .ofTurns (skippedIn (line :: rest)) turns := by
        simp only [Summary.add, Summary.ofTurns, hcount, Summary.mk.injEq]
        omega
      rw [List.map_cons, runLines_cons, ← htotal]
      exact hline.andThen ((ih _).mapResult _)
  | @turn line rest command sends parameters state between after turns spoken accepted
      converted performed ih =>
      have hcommand := runCommand_of_accepts line.number stored accepted converted
      rw [← d.runLine_of_spoken state stored spoken] at hcommand
      have hline := hcommand.notedBefore (readingNotes isRead line)
      have hcount : skippedIn (line :: rest) = skippedIn rest :=
        List.countP_cons_of_neg (by rw [spoken]; exact Bool.false_ne_true)
      have htotal : (Summary.mk 1 0 parameters.length (antennasOf command)).add
          (.ofTurns (skippedIn rest) turns) =
            .ofTurns (skippedIn (line :: rest)) (⟨command, sends, parameters⟩ :: turns) := by
        simp only [Summary.add, Summary.ofTurns, hcount, List.length_cons, List.flatMap_cons,
          List.length_append, List.map_cons, List.sum_cons, Summary.mk.injEq]
        exact ⟨by omega, by omega, trivial, trivial⟩
      rw [List.map_cons, runLines_cons, ← htotal]
      exact hline.andThen ((ih _).mapResult _)

/-- An item that ends a run leaves its sends behind and nothing else, whatever follows. -/
theorem runLines_of_stopsAt (isRead : Bool) {item : Item} {sent : List Text} {error : Error}
    (h : d.endpoint.StopsAt d.marker state item sent error after) (rest : List Item)
    (stored : τ) :
    (d.runLines isRead (item :: rest) state stored).Shows (.error error) after
      (sent.map .send) (sent.take 1) := by
  cases h with
  | unreadable => exact ⟨rfl, rfl, rfl, rfl, Chronicle.beginsQuietly_nil⟩
  | @givenUp line command sends _ _ spoken failed =>
      have hline := runCommand_of_fails line.number stored failed
      rw [← d.runLine_of_spoken state stored spoken] at hline
      rw [runLines_cons, Endpoint.take_one_replicate failed.sends_eq]
      exact (hline.notedBefore _).andThen_of_error
  | @malformed line command sends _ _ spoken accepted refused =>
      have hline := runCommand_of_malformed line.number stored accepted refused
      rw [← d.runLine_of_spoken state stored spoken] at hline
      rw [runLines_cons, Endpoint.take_one_replicate accepted.sends_eq]
      exact (hline.notedBefore _).andThen_of_error

/-! ## Runs -/

theorem closeRun_shows (done : Summary) (state : σ) (stored : τ) :
    (d.closeRun done state stored).Shows
      (.ok ⟨done.commands, done.skipped, done.parameters + 1, done.antennas⟩) state
      [.write (antennaTally done.antennas)] [] := by
  rw [closeRun, ← Store.publishAll_singleton]
  exact ⟨rfl, rfl, d.store.deeds_publishAll _ stored, d.store.dispatches_publishAll _ stored,
    d.store.beginsQuietly_publishAll _ stored⟩

/-- **A run whose lines are all carried out** succeeds: it takes its turns and then writes
the antenna tally. -/
theorem run_of_performs {source : Source} {lines : List Line} {turns : List Turn}
    (hitems : source.items = lines.map .ok)
    (h : d.endpoint.Performs d.marker lines state turns after) (stored : τ) :
    (d.run source state stored).Shows
      (.ok ⟨turns.length, skippedIn lines, (turns.flatMap Turn.parameters).length + 1,
        (turns.map fun turn => antennasOf turn.command).sum⟩) after
      (turns.flatMap Turn.deeds ++
        [.write (antennaTally (turns.map fun turn => antennasOf turn.command).sum)])
      (turns.map Turn.command) := by
  rw [run, hitems, ← List.append_nil (turns.map Turn.command)]
  exact (d.runLines_of_performs source.isRead h stored).andThen (d.closeRun_shows _ _ _)

/-- **A run that an item ends** fails with the item's error: it takes the turns of the lines
before the item, and sends what the item sends. -/
theorem run_of_stopsAt {source : Source} {lines : List Line} {item : Item}
    {rest : List Item} {turns : List Turn} {mid : σ} {sent : List Text} {error : Error}
    (hitems : source.items = lines.map .ok ++ item :: rest)
    (h : d.endpoint.Performs d.marker lines state turns mid)
    (hstop : d.endpoint.StopsAt d.marker mid item sent error after) (stored : τ) :
    (d.run source state stored).Shows (.error error) after
      (turns.flatMap Turn.deeds ++ sent.map .send)
      (turns.map Turn.command ++ sent.take 1) := by
  have hlines := d.runLines_of_performs source.isRead h stored
  rw [run, hitems, runLines_append]
  -- the error keeps the run from its end, where the tally would be written
  apply Aftermath.Shows.andThen_of_error
  exact hlines.andThen ((d.runLines_of_stopsAt source.isRead hstop rest _).mapResult _)

/-- The turns of lines that are carried out come first, whatever items follow. -/
theorem deeds_prefix_of_performs {source : Source} {lines : List Line} {rest : List Item}
    {turns : List Turn} {mid : σ} (hitems : source.items = lines.map .ok ++ rest)
    (h : d.endpoint.Performs d.marker lines state turns mid) (stored : τ) :
    turns.flatMap Turn.deeds <+: (d.run source state stored).chronicle.deeds := by
  rw [run, hitems, runLines_append, ← (d.runLines_of_performs source.isRead h stored).deeds_eq]
  exact ((Aftermath.prefix_andThen _ _).trans (Aftermath.prefix_andThen _ _)).filterMap _

/-- **What a run sends is what it dispatches**, each command once or twice in a row. -/
theorem withRetries_run (source : Source) (state : σ) (stored : τ) :
    WithRetries (d.run source state stored).chronicle.dispatches
      (d.run source state stored).chronicle.sends := by
  rcases d.endpoint.performs_or_stops d.marker source.items state with
    ⟨lines, turns, after, hitems, h⟩ |
    ⟨lines, item, rest, turns, mid, sent, error, after, hitems, h, hstop⟩
  · have hrun := d.run_of_performs hitems h stored
    rw [hrun.dispatches_eq, hrun.sends_eq, List.filterMap_append,
      show List.filterMap Deed.command? [Deed.write _] = [] from rfl, List.append_nil]
    exact WithRetries.of_turns fun turn hturn => (h.of_mem_turns hturn).1
  · have hrun := d.run_of_stopsAt hitems h hstop stored
    rw [hrun.dispatches_eq, hrun.sends_eq, List.filterMap_append, filterMap_command?_sends]
    exact (WithRetries.of_turns fun turn hturn => (h.of_mem_turns hturn).1).append
      hstop.withRetries

/-! ### Reading a run off its result -/

variable {source : Source} {stored : τ}

/-- A run succeeds only if all its lines are carried out. -/
theorem performs_of_ok {summary : Summary}
    (h : (d.run source state stored).result = .ok summary) :
    ∃ lines turns after, source.items = lines.map .ok ∧
      d.endpoint.Performs d.marker lines state turns after := by
  rcases d.endpoint.performs_or_stops d.marker source.items state with hall |
    ⟨lines, item, rest, turns, mid, sent, error, after, hitems, hlines, hstop⟩
  · exact hall
  · rw [(d.run_of_stopsAt hitems hlines hstop stored).result_eq] at h
    cases h

theorem stopsAt_of_error {error : Error}
    (h : (d.run source state stored).result = .error error) :
    ∃ lines item rest turns mid sent after, source.items = lines.map .ok ++ item :: rest ∧
      d.endpoint.Performs d.marker lines state turns mid ∧
      d.endpoint.StopsAt d.marker mid item sent error after := by
  rcases d.endpoint.performs_or_stops d.marker source.items state with
    ⟨lines, turns, after, hitems, hlines⟩ |
    ⟨lines, item, rest, turns, mid, sent, error', after, hitems, hlines, hstop⟩
  · rw [(d.run_of_performs hitems hlines stored).result_eq] at h
    cases h
  · rw [(d.run_of_stopsAt hitems hlines hstop stored).result_eq] at h
    cases h
    exact ⟨lines, item, rest, turns, mid, sent, after, hitems, hlines, hstop⟩

/-- **A run that failed is over**: items added at the end change nothing. -/
theorem run_append_of_error {items : List Item} {isRead : Bool} {error : Error}
    (h : (d.run ⟨items, isRead⟩ state stored).result = .error error) (rest : List Item) :
    d.run ⟨items ++ rest, isRead⟩ state stored = d.run ⟨items, isRead⟩ state stored := by
  unfold run at h ⊢
  dsimp only at h ⊢
  rw [runLines_append]
  generalize d.runLines isRead items state stored = first at h ⊢
  rcases first with ⟨error' | done, state', stored', chronicle⟩
  · rfl
  · cases h

end Driver

/-- The driver of a scripted endpoint and of a store that refuses some keys. Its runs can be
computed. -/
def Scripted.driver (refused : List Text) : Driver (List Reply) (List Parameter) :=
  ⟨endpoint true, .keeping refused, successMarker⟩

end RadarProfile
