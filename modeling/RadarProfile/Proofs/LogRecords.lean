import RadarProfile.Proofs.Aftermath

set_option autoImplicit false

/-! # The log of a run

The log has one record for each note, with its level and its wording. For a run over a
scripted endpoint and a store that refuses some keys it is known record by record: `Mirrors`
lists what a line, the answers of the script and the parameters of the line add to the log
and to the effects, and which of them end both. Every run is mirrored by its log
(`Scripted.mirrors_runOn`). -/

namespace RadarProfile

/-! ## Records -/

namespace Record

/-- The record of a note as the log gets it, before a terminal is thought of. -/
def ofNote (note : Note) : Record := ⟨note.level, note.message⟩

def read (line : Line) : Record :=
  ⟨.trace, "line ".toList ++ Text.ofNat line.number ++ ": ".toList ++ line.kind.name ++ [' '] ++
    Text.quoted line.text⟩

def ignored (line : Line) : Record :=
  ⟨.debug, "line ".toList ++ Text.ofNat line.number ++ ": ".toList ++ "ignored ".toList ++
    Text.quoted line.text⟩

def sending (number : Nat) (command : Text) : Record :=
  ⟨.info, "line ".toList ++ Text.ofNat number ++ ": ".toList ++ "sending ".toList ++
    Text.quoted command⟩

def attempt (command : Text) (number : Nat) : Record :=
  ⟨.debug, "sending ".toList ++ Text.quoted command ++ " attempt ".toList ++
    Text.ofNat number⟩

def accepted (command : Text) : Record := ⟨.info, Text.quoted command ++ " accepted".toList⟩

def notAccepted (level : Level) (command marker response : Text) : Record :=
  ⟨level, Text.quoted command ++ " not accepted (no ".toList ++ Text.quoted marker ++
    "), response: ".toList ++ Text.quoted response⟩

def written (parameter : Parameter) : Record :=
  ⟨.debug, parameter.name ++ " = ".toList ++ parameter.value.logText⟩

def notStored (parameter : Parameter) : Record :=
  ⟨.warn, "failed to set parameter ".toList ++ parameter.name ++ ": ".toList ++
    ("io error: ".toList ++ "store offline".toList)⟩

/-! ### Records of sends and of writes -/

/-- The records of one send: that it is made, and what came back, if anything did. -/
def ofSend (marker command : Text) (number : Nat) : Scripted.Reply → List Record
  | .error _ => [attempt command number]
  | .ok response =>
    if Text.occursIn marker response then [attempt command number, accepted command]
    else [attempt command number,
      notAccepted (if number = 1 then .warn else .error) command marker response]

theorem ofSend_marked {marker response : Text} (h : Text.occursIn marker response = true)
    (command : Text) (number : Nat) :
    ofSend marker command number (.ok response) =
      [attempt command number, accepted command] := by
  rw [ofSend, if_pos h]

theorem ofSend_unmarked {marker response : Text} (h : Text.occursIn marker response = false)
    (command : Text) (number : Nat) :
    ofSend marker command number (.ok response) = [attempt command number,
      notAccepted (if number = 1 then .warn else .error) command marker response] := by
  rw [ofSend, h, if_neg Bool.false_ne_true]

def ofSends (marker command : Text) (number : Nat) : List Scripted.Reply → List Record
  | [] => []
  | answer :: rest =>
    ofSend marker command number answer ++ ofSends marker command (number + 1) rest

def ofWrite (refused : List Text) (parameter : Parameter) : List Record :=
  if refused.contains parameter.name then [written parameter, notStored parameter]
  else [written parameter]

end Record

namespace Chronicle

def records (c : Chronicle) : List Record := c.notes.map Record.ofNote

def ofSends (command : Text) (answers : List Scripted.Reply) : Chronicle :=
  answers.map fun _ => .sent command

def ofWrites (refused : List Text) (parameters : List Parameter) : Chronicle :=
  parameters.map fun parameter =>
    .wrote parameter.name parameter.value (!refused.contains parameter.name)

theorem records_append (a b : Chronicle) : records (a ++ b) = a.records ++ b.records := by
  rw [records, notes, List.filterMap_append, List.map_append]
  rfl

theorem effects_append (a b : Chronicle) : effects (a ++ b) = a.effects ++ b.effects :=
  List.filter_append ..

end Chronicle

/-! ## Scripts -/

namespace Scripted

/-- The answer to the next send of a command, and what is left of the script. -/
def next (replies : List Reply) (command : Text) : Reply × List Reply :=
  match replies with
  | [] => (.ok (acceptance command), [])
  | reply :: rest => (reply, rest)

theorem send_eq (ready : Bool) (replies : List Reply) (command : Text) :
    (endpoint ready).send replies command =
      ⟨(next replies command).1, [], (next replies command).2⟩ := by
  cases replies with
  | nil => rfl
  | cons reply rest => rfl

/-- `Answered marker command replies answers rest error?`: the sends of a command get these
answers, which leave this rest of the script, and the command is given up for the error, if
there is one. -/
inductive Answered (marker command : Text) (replies : List Reply) :
    List Reply → List Reply → Option Error → Prop where
  | atOnce {response : Text} {rest : List Reply}
      (first : next replies command = (.ok response, rest))
      (marked : Text.occursIn marker response = true) :
      Answered marker command replies [.ok response] rest none
  | onRetry {response response' : Text} {between rest : List Reply}
      (first : next replies command = (.ok response, between))
      (unmarked : Text.occursIn marker response = false)
      (second : next between command = (.ok response', rest))
      (marked : Text.occursIn marker response' = true) :
      Answered marker command replies [.ok response, .ok response'] rest none
  | undelivered {fault : DeliveryFault} {rest : List Reply}
      (first : next replies command = (.error fault, rest)) :
      Answered marker command replies [.error fault] rest (some (.delivery command fault))
  | retryUndelivered {response : Text} {fault : DeliveryFault} {between rest : List Reply}
      (first : next replies command = (.ok response, between))
      (unmarked : Text.occursIn marker response = false)
      (second : next between command = (.error fault, rest)) :
      Answered marker command replies [.ok response, .error fault] rest
        (some (.delivery command fault))
  | refused {response response' : Text} {between rest : List Reply}
      (first : next replies command = (.ok response, between))
      (unmarked : Text.occursIn marker response = false)
      (second : next between command = (.ok response', rest))
      (unmarked' : Text.occursIn marker response' = false) :
      Answered marker command replies [.ok response, .ok response'] rest
        (some (.acceptance command response' 2))

end Scripted

/-! ## Mirrors -/

/-- `Mirrors marker refused items replies antennas records effects error?`: from the items on,
with these replies left and so many antennas counted, the log and the effects go on like this,
and the run ends with the error, if there is one. -/
inductive Mirrors (marker : Text) (refused : List Text) :
    List Item → List Scripted.Reply → Nat → List Record → Chronicle → Option Error → Prop where
  /-- The antenna tally is written at the very end. -/
  | finished {replies : List Scripted.Reply} {antennas : Nat} :
      Mirrors marker refused [] replies antennas
        (Record.ofWrite refused (antennaTally antennas))
        (Chronicle.ofWrites refused [antennaTally antennas]) none
  /-- A line that could not be read leaves nothing, and nor do the items after it. -/
  | unreadable {fault : Fault} {rest : List Item} {replies : List Scripted.Reply}
      {antennas : Nat} :
      Mirrors marker refused (.error fault :: rest) replies antennas [] []
        (some (.reading fault))
  /-- A line without a command is read and ignored. -/
  | ignored {line : Line} {rest : List Item} {replies : List Scripted.Reply} {antennas : Nat}
      {records : List Record} {effects : Chronicle} {error? : Option Error}
      (silent : line.command? = none)
      (onward : Mirrors marker refused rest replies antennas records effects error?) :
      Mirrors marker refused (.ok line :: rest) replies antennas
        (.read line :: .ignored line :: records) effects error?
  /-- A command is read, sent and accepted, and its parameters are written. -/
  | performed {line : Line} {rest : List Item} {command : Text}
      {replies answers replies' : List Scripted.Reply} {parameters : List Parameter}
      {antennas : Nat} {records : List Record} {effects : Chronicle} {error? : Option Error}
      (spoken : line.command? = some command)
      (answered : Scripted.Answered marker command replies answers replies' none)
      (converted : parametersOf command = .ok parameters)
      (onward : Mirrors marker refused rest replies' (antennas + antennasOf command) records
        effects error?) :
      Mirrors marker refused (.ok line :: rest) replies antennas
        (.read line :: .sending line.number command ::
          (Record.ofSends marker command 1 answers ++
            (parameters.flatMap (Record.ofWrite refused) ++ records)))
        (Chronicle.ofSends command answers ++
          (Chronicle.ofWrites refused parameters ++ effects)) error?
  /-- A command is accepted, but a token cannot be converted: nothing is written. -/
  | malformed {line : Line} {rest : List Item} {command : Text}
      {replies answers replies' : List Scripted.Reply} {fault : FieldError} {antennas : Nat}
      (spoken : line.command? = some command)
      (answered : Scripted.Answered marker command replies answers replies' none)
      (mistyped : parametersOf command = .error fault) :
      Mirrors marker refused (.ok line :: rest) replies antennas
        (.read line :: .sending line.number command :: Record.ofSends marker command 1 answers)
        (Chronicle.ofSends command answers) (some (.conversion fault))
  /-- A command is given up. -/
  | givenUp {line : Line} {rest : List Item} {command : Text}
      {replies answers replies' : List Scripted.Reply} {error : Error} {antennas : Nat}
      (spoken : line.command? = some command)
      (answered : Scripted.Answered marker command replies answers replies' (some error)) :
      Mirrors marker refused (.ok line :: rest) replies antennas
        (.read line :: .sending line.number command :: Record.ofSends marker command 1 answers)
        (Chronicle.ofSends command answers) (some error)

/-! ## The steps of a run -/

/-- **A dispatch** over a script is told by its answers. -/
theorem Scripted.dispatch_answered (ready : Bool) (marker command : Text)
    (replies : List Reply) :
    let sent := (endpoint ready).dispatch marker command replies
    ∃ answers, Answered marker command replies answers sent.state (sent.error? command) ∧
      sent.chronicle.records = Record.ofSends marker command 1 answers ∧
      sent.chronicle.effects = Chronicle.ofSends command answers := by
  intro sent
  have hdispatch : sent = (endpoint ready).deliver marker command 1 1 replies := rfl
  rcases hfirst : next replies command with ⟨fault | response, between⟩
  · have hsent := send_eq ready replies command
    rw [hfirst] at hsent
    rw [hdispatch, Endpoint.deliver_undelivered 1 1 hsent]
    exact ⟨_, .undelivered hfirst, rfl, rfl⟩
  have hsent := send_eq ready replies command
  rw [hfirst] at hsent
  cases hmarked : Text.occursIn marker response with
  | true =>
      rw [hdispatch, Endpoint.deliver_marked 1 1 hsent hmarked]
      refine ⟨_, .atOnce hfirst hmarked, ?_, rfl⟩
      rw [Record.ofSends, Record.ofSend_marked hmarked]
      rfl
  | false =>
      -- the second send decides
      have hresent := send_eq ready between command
      rw [hdispatch, Endpoint.deliver_unmarked_spare 1 0 hsent hmarked]
      rcases hsecond : next between command with ⟨fault | response', rest⟩
      · rw [hsecond] at hresent
        rw [Endpoint.deliver_undelivered 2 0 hresent]
        refine ⟨_, .retryUndelivered hfirst hmarked hsecond, ?_, rfl⟩
        rw [Record.ofSends, Record.ofSend_unmarked hmarked]
        rfl
      · rw [hsecond] at hresent
        cases hmarked' : Text.occursIn marker response' with
        | true =>
            rw [Endpoint.deliver_marked 2 0 hresent hmarked']
            refine ⟨_, .onRetry hfirst hmarked hsecond hmarked', ?_, rfl⟩
            rw [Record.ofSends, Record.ofSend_unmarked hmarked, Record.ofSends,
              Record.ofSend_marked hmarked']
            rfl
        | false =>
            rw [Endpoint.deliver_unmarked_last 2 hresent hmarked']
            refine ⟨_, .refused hfirst hmarked hsecond hmarked', ?_, rfl⟩
            rw [Record.ofSends, Record.ofSend_unmarked hmarked, Record.ofSends,
              Record.ofSend_unmarked hmarked']
            rfl

namespace Store

theorem publish_told (refused : List Text) (parameter : Parameter) (kept : List Parameter) :
    let published := (keeping refused).publish parameter kept
    published.chronicle.records = Record.ofWrite refused parameter ∧
      published.chronicle.effects = Chronicle.ofWrites refused [parameter] := by
  unfold Record.ofWrite Chronicle.ofWrites publish keeping
  cases hrefused : refused.contains parameter.name with
  | true =>
      simp only [List.map_cons, List.map_nil, hrefused, if_true]
      exact ⟨rfl, rfl⟩
  | false =>
      simp only [List.map_cons, List.map_nil, hrefused, Bool.false_eq_true, if_false]
      exact ⟨rfl, rfl⟩

/-- **Writes** are told one by one. -/
theorem publishAll_told (refused : List Text) (parameters kept : List Parameter) :
    let published := (keeping refused).publishAll parameters kept
    published.chronicle.records = parameters.flatMap (Record.ofWrite refused) ∧
      published.chronicle.effects = Chronicle.ofWrites refused parameters := by
  induction parameters generalizing kept with
  | nil => exact ⟨rfl, rfl⟩
  | cons parameter rest ih =>
      obtain ⟨hrecords, heffects⟩ := publish_told refused parameter kept
      obtain ⟨hrecords', heffects'⟩ := ih ((keeping refused).publish parameter kept).state
      intro published
      constructor
      · show Chronicle.records (_ ++ _) = _
        rw [Chronicle.records_append, hrecords, hrecords', List.flatMap_cons]
      · show Chronicle.effects (_ ++ _) = _
        rw [Chronicle.effects_append, heffects, heffects']
        rfl

end Store

/-! ## Runs -/

def Aftermath.error? {σ τ α : Type} (a : Aftermath σ τ α) : Option Error :=
  match a.result with
  | .error error => some error
  | .ok _ => none

namespace Driver

variable {σ τ : Type} (d : Driver σ τ)

def runOn (done : Summary) (items : List Item) (state : σ) (stored : τ) :
    Aftermath σ τ Summary :=
  ((d.runLines true items state stored).mapResult done.add).andThen d.closeRun

theorem run_eq_runOn (items : List Item) (state : σ) (stored : τ) :
    d.run ⟨items, true⟩ state stored = d.runOn .zero items state stored := by
  rw [run, runOn, Aftermath.mapResult_zero_add]

theorem runOn_cons (done : Summary) (line : Line) (rest : List Item) (state : σ) (stored : τ) :
    d.runOn done (.ok line :: rest) state stored =
      ((d.runLine line state stored).notedBefore [.lineRead line]).andThen
        fun more state stored => d.runOn (done.add more) rest state stored := by
  rw [runOn, runLines_cons, Aftermath.andThen_mapResult, Aftermath.andThen_assoc]
  congr 1
  funext more state stored
  rw [Aftermath.mapResult_add_add]
  rfl

end Driver

/-! ### Scripted runs -/

namespace Scripted

variable (ready : Bool) (marker : Text) (refused : List Text)

def driverOf : Driver (List Reply) (List Parameter) := ⟨endpoint ready, .keeping refused, marker⟩

/-- A line whose command is sent, before a rest that is mirrored. -/
theorem mirrors_of_spoken {line : Line} {command : Text} (hspoken : line.command? = some command)
    (rest : List Item) (done : Summary) (replies : List Reply) (kept : List Parameter)
    (onward : ∀ (done : Summary) (replies : List Reply) (kept : List Parameter),
      let run := (driverOf ready marker refused).runOn done rest replies kept
      Mirrors marker refused rest replies done.antennas run.chronicle.records
        run.chronicle.effects run.error?) :
    let run := (((driverOf ready marker refused).runLine line replies kept).notedBefore
      [.lineRead line]).andThen fun more state stored =>
        (driverOf ready marker refused).runOn (done.add more) rest state stored
    Mirrors marker refused (.ok line :: rest) replies done.antennas run.chronicle.records
      run.chronicle.effects run.error? := by
  -- what the dispatch leaves is known by its answers, so the dispatch itself can be forgotten
  obtain ⟨answers, hanswered, hrecords, heffects⟩ :=
    dispatch_answered ready marker command replies
  rw [Driver.runLine_of_spoken _ _ _ hspoken, Driver.runCommand_eq]
  dsimp only [driverOf] at onward ⊢
  generalize (endpoint ready).dispatch marker command replies = sent
    at hanswered hrecords heffects ⊢
  cases herror : sent.error? command with
  | some error =>
      rw [herror] at hanswered
      have hline : Mirrors marker refused (.ok line :: rest) replies done.antennas _ _ _ :=
        .givenUp hspoken hanswered
      rw [← hrecords, ← heffects] at hline
      exact hline
  | none =>
      rw [herror] at hanswered
      cases hparameters : parametersOf command with
      | error fault =>
          have hline : Mirrors marker refused (.ok line :: rest) replies done.antennas _ _ _ :=
            .malformed hspoken hanswered hparameters
          rw [← hrecords, ← heffects] at hline
          exact hline
      | ok parameters =>
          -- the only way on: the rest adds to what this line counts
          obtain ⟨hrecords', heffects'⟩ := Store.publishAll_told refused parameters kept
          have hrest := onward (done.add ⟨1, 0, parameters.length, antennasOf command⟩) sent.state
            ((Store.keeping refused).publishAll parameters kept).state
          have hline := Mirrors.performed hspoken hanswered hparameters hrest
          rw [← hrecords, ← heffects, ← hrecords', ← heffects', ← Chronicle.records_append,
            ← Chronicle.records_append, ← Chronicle.effects_append, ← Chronicle.effects_append,
            ← List.append_assoc] at hline
          exact hline

/-- **A run is mirrored by its log**, from any line on and whatever was counted before. -/
theorem mirrors_runOn (items : List Item) (done : Summary) (replies : List Reply)
    (kept : List Parameter) :
    let run := (driverOf ready marker refused).runOn done items replies kept
    Mirrors marker refused items replies done.antennas run.chronicle.records
      run.chronicle.effects run.error? := by
  -- what was counted before stays general: it comes back in the tally at the end
  induction items generalizing done replies kept with
  | nil =>
      obtain ⟨hrecords, heffects⟩ :=
        Store.publish_told refused (antennaTally done.antennas) kept
      intro run
      have hrun : run.chronicle =
          ((Store.keeping refused).publish (antennaTally done.antennas) kept).chronicle := rfl
      rw [hrun, hrecords, heffects]
      exact .finished
  | cons item rest ih =>
      cases item with
      | error fault => exact .unreadable
      | ok line =>
          rw [Driver.runOn_cons]
          cases hspoken : line.command? with
          | none =>
              rw [Driver.runLine, hspoken]
              exact .ignored hspoken (ih (done.add ⟨0, 1, 0, 0⟩) replies kept)
          | some command =>
              exact mirrors_of_spoken ready marker refused hspoken rest done replies kept ih

end Scripted

end RadarProfile
