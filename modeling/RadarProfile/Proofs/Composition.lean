import RadarProfile.Proofs.Aftermath

set_option autoImplicit false

/-! # Runs in a row

A run over items in two parts does what a run over the first part and then a run over the
second one do, but for the antenna tally: two runs write one tally each, a single run writes
their sum at the end (`run_append`). If the store decides by the key alone, this holds of
the answers of the store as well as of what is handed to it. -/

namespace RadarProfile

variable {σ τ : Type}

/-! ## Stores that decide by the key -/

/-- The store takes the keys that `takes` says, whatever the value is and whatever it was
given before. -/
def Store.TakesBy (store : Store τ) (takes : Text → Bool) : Prop :=
  ∀ stored key value, (store.write stored key value).refusal.isNone = takes key

/-- Whether a value is taken depends on nothing but its key. -/
def Store.DecidesByKey (store : Store τ) : Prop := ∃ takes, store.TakesBy takes

namespace Store

variable {store : Store τ} {takes : Text → Bool}

theorem TakesBy.answeredBy_publish (h : store.TakesBy takes) (parameter : Parameter)
    (stored : τ) : (store.publish parameter stored).chronicle.AnsweredBy takes := by
  have hanswer := h stored parameter.name parameter.value
  intro name value taken hmem
  rw [publish] at hmem
  simp only [List.mem_cons, List.mem_append, List.mem_map, reduceCtorEq, and_false,
    exists_false, false_or, Entry.wrote.injEq] at hmem
  rcases hmem with ⟨rfl, rfl, rfl⟩ | hmem
  · exact hanswer
  · -- what comes after the write are notes
    cases hrefusal : (store.write stored parameter.name parameter.value).refusal with
    | none => rw [hrefusal] at hmem; cases hmem
    | some error => rw [hrefusal] at hmem; simp at hmem

theorem TakesBy.answeredBy_publishAll (h : store.TakesBy takes)
    (parameters : List Parameter) (stored : τ) :
    (store.publishAll parameters stored).chronicle.AnsweredBy takes := by
  induction parameters generalizing stored with
  | nil => exact Chronicle.answeredBy_of_no_writes rfl
  | cons parameter rest ih =>
      rw [publishAll]
      exact (h.answeredBy_publish parameter stored).append (ih _)

theorem keeping_decidesByKey (refused : List Text) : (keeping refused).DecidesByKey := by
  refine ⟨fun key => !refused.contains key, fun stored key value => ?_⟩
  rw [keeping]
  dsimp only
  cases refused.contains key with
  | true => rfl
  | false => rfl

end Store

theorem Endpoint.answeredBy_dispatch (endpoint : Endpoint σ) (takes : Text → Bool)
    (marker command : Text) (state : σ) :
    (endpoint.dispatch marker command state).chronicle.AnsweredBy takes :=
  Chronicle.answeredBy_of_no_writes (endpoint.writes_dispatch marker command state)

/-- Two actions are answered as each of them is. -/
theorem Aftermath.answeredBy_andThen {α β : Type} {takes : Text → Bool}
    {a : Aftermath σ τ α} {next : α → σ → τ → Aftermath σ τ β}
    (h : a.chronicle.AnsweredBy takes)
    (hnext : ∀ x state stored, (next x state stored).chronicle.AnsweredBy takes) :
    (a.andThen next).chronicle.AnsweredBy takes := by
  rcases a with ⟨error | x, state, stored, chronicle⟩
  · exact h
  · exact h.append (hnext x state stored)

namespace Driver

variable {d : Driver σ τ} {takes : Text → Bool}

theorem answeredBy_runLine (h : d.store.TakesBy takes) (line : Line) (state : σ)
    (stored : τ) : (d.runLine line state stored).chronicle.AnsweredBy takes := by
  cases hspoken : line.command? with
  | none =>
      apply Chronicle.answeredBy_of_no_writes
      rw [Chronicle.writes, (d.runLine_of_silent state stored hspoken).deeds_eq]
      rfl
  | some command =>
      have hnote : Chronicle.AnsweredBy takes [.noted (.lineSent line.number command)] :=
        Chronicle.answeredBy_of_no_writes rfl
      have hopened := hnote.append
        (d.endpoint.answeredBy_dispatch takes d.marker command state)
      rw [d.runLine_of_spoken state stored hspoken, runCommand_eq]
      dsimp only
      cases (d.endpoint.dispatch d.marker command state).error? command with
      | some error => exact hopened
      | none =>
          cases parametersOf command with
          | error fault => exact hopened
          | ok parameters => exact hopened.append (h.answeredBy_publishAll parameters stored)

theorem answeredBy_runLines (h : d.store.TakesBy takes) (isRead : Bool) (items : List Item)
    (state : σ) (stored : τ) :
    (d.runLines isRead items state stored).chronicle.AnsweredBy takes := by
  induction items generalizing state stored with
  | nil => exact Chronicle.answeredBy_of_no_writes rfl
  | cons item rest ih =>
      cases item with
      | error fault => exact Chronicle.answeredBy_of_no_writes rfl
      | ok line =>
          have hnotes : Chronicle.AnsweredBy takes ((readingNotes isRead line).map .noted) :=
            Chronicle.answeredBy_of_no_writes (by
              rw [Chronicle.writes, Chronicle.deeds_map_noted]; rfl)
          rw [runLines_cons]
          exact Aftermath.answeredBy_andThen
            (hnotes.append (answeredBy_runLine h line state stored)) fun _ => ih

/-- All that a run hands to a store is answered by its key, if the store decides by the
key. -/
theorem answeredBy_run (h : d.store.TakesBy takes) (source : Source) (state : σ) (stored : τ) :
    (d.run source state stored).chronicle.AnsweredBy takes :=
  Aftermath.answeredBy_andThen (answeredBy_runLines h _ _ _ _) fun done _ stored =>
    h.answeredBy_publish (antennaTally done.antennas) stored

/-- **The effects of a run are its deeds**, each write answered by its key. -/
theorem effects_run (h : d.store.TakesBy takes) (source : Source) (state : σ) (stored : τ) :
    (d.run source state stored).chronicle.effects =
      (d.run source state stored).chronicle.deeds.map (Deed.entry takes) :=
  Chronicle.effects_eq_deeds (answeredBy_run h source state stored)

/-! ## Composition -/

/-- **After a run that succeeds**, a run over the items that follow ends as a run over all
items does. The deeds of the whole run are those of the two without the first tally, and
with the sum of the tallies in the place of the second. -/
theorem deeds_run_append {first : List Item} {isRead : Bool} {state : σ} {stored : τ}
    {done : Summary} (h : (d.run ⟨first, isRead⟩ state stored).result = .ok done)
    (rest : List Item) :
    let one := d.run ⟨first, isRead⟩ state stored
    let two := d.run ⟨rest, isRead⟩ one.endpoint one.store
    let whole := d.run ⟨first ++ rest, isRead⟩ state stored
    ∃ deeds, one.chronicle.deeds = deeds ++ [.write (antennaTally done.antennas)] ∧
      whole.endpoint = two.endpoint ∧
      ((∃ error, two.result = .error error ∧ whole.result = .error error ∧
          whole.chronicle.deeds = deeds ++ two.chronicle.deeds) ∨
        ∃ done' deeds', two.result = .ok done' ∧
          whole.result = .ok ⟨done.commands + done'.commands, done.skipped + done'.skipped,
            done.parameters + done'.parameters - 1, done.antennas + done'.antennas⟩ ∧
          two.chronicle.deeds = deeds' ++ [.write (antennaTally done'.antennas)] ∧
          whole.chronicle.deeds =
            deeds ++ deeds' ++ [.write (antennaTally (done.antennas + done'.antennas))]) := by
  intro one two whole
  obtain ⟨lines, turns, mid, hfirst, hlines⟩ := d.performs_of_ok h
  have hone := d.run_of_performs hfirst hlines stored
  have hmid : one.endpoint = mid := hone.endpoint_eq
  rw [hone.result_eq] at h
  cases h
  refine ⟨turns.flatMap Turn.deeds, hone.deeds_eq, ?_⟩
  rcases d.endpoint.performs_or_stops d.marker rest one.endpoint with
    ⟨lines', turns', after, hrest, hlines'⟩ |
    ⟨lines', item, tail, turns', mid', sent, error, after, hrest, hlines', hstop⟩
  · -- both parts are carried out: the turns of the whole are those of the parts
    have hwhole : first ++ rest = (lines ++ lines').map .ok := by
      rw [List.map_append, ← hrest]
      exact congrArg (· ++ rest) hfirst
    have htwo := d.run_of_performs (show (Source.mk rest isRead).items = _ from hrest)
      hlines' one.store
    have hall := d.run_of_performs
      (show (Source.mk (first ++ rest) isRead).items = _ from hwhole)
      (hlines.append (hmid ▸ hlines')) stored
    refine ⟨hall.endpoint_eq.trans htwo.endpoint_eq.symm, Or.inr ⟨_, turns'.flatMap Turn.deeds,
      htwo.result_eq, ?_, htwo.deeds_eq, ?_⟩⟩
    · rw [hall.result_eq]
      simp only [skippedIn, List.length_append, List.countP_append, List.flatMap_append,
        List.map_append, List.sum_append, Except.ok.injEq, Summary.mk.injEq, true_and, and_true]
      omega
    · rw [hall.deeds_eq, List.flatMap_append, List.map_append, List.sum_append]
  · -- the item that ends the second run ends the whole run too
    have hwhole : first ++ rest = (lines ++ lines').map .ok ++ item :: tail := by
      rw [List.map_append, List.append_assoc, ← hrest]
      exact congrArg (· ++ rest) hfirst
    have htwo := d.run_of_stopsAt (show (Source.mk rest isRead).items = _ from hrest)
      hlines' hstop one.store
    have hall := d.run_of_stopsAt
      (show (Source.mk (first ++ rest) isRead).items = _ from hwhole)
      (hlines.append (hmid ▸ hlines')) hstop stored
    refine ⟨hall.endpoint_eq.trans htwo.endpoint_eq.symm, Or.inl ⟨error, htwo.result_eq,
      hall.result_eq, ?_⟩⟩
    rw [hall.deeds_eq, htwo.deeds_eq, List.flatMap_append, List.append_assoc]

/-- **Runs compose.** A run that fails is not changed by items added after it. After one
that succeeds, the whole run fails exactly if the run over the items that follow fails, and
with the same error; otherwise the totals add up, the two tallies being counted as the one
that is written. Either way the effects of the two runs follow each other, without the
first tally and with the sum of the tallies in the place of the second. -/
theorem run_append (hstore : d.store.DecidesByKey) (first rest : List Item) (isRead : Bool)
    (state : σ) (stored : τ) :
    let one := d.run ⟨first, isRead⟩ state stored
    let two := d.run ⟨rest, isRead⟩ one.endpoint one.store
    let whole := d.run ⟨first ++ rest, isRead⟩ state stored
    (∀ error, one.result = .error error → whole = one) ∧
    ∀ done, one.result = .ok done →
      ∃ taken effects,
        one.chronicle.effects =
          effects ++ [.wrote Schema.antennaParameter (.int done.antennas) taken] ∧
        whole.endpoint = two.endpoint ∧
        (∀ error, whole.result = .error error ↔ two.result = .error error) ∧
        (∀ error, two.result = .error error →
          whole.chronicle.effects = effects ++ two.chronicle.effects) ∧
        ∀ done', two.result = .ok done' →
          whole.result = .ok ⟨done.commands + done'.commands, done.skipped + done'.skipped,
            done.parameters + done'.parameters - 1, done.antennas + done'.antennas⟩ ∧
          ∃ effects',
            two.chronicle.effects =
              effects' ++ [.wrote Schema.antennaParameter (.int done'.antennas) taken] ∧
            whole.chronicle.effects = effects ++ effects' ++
              [.wrote Schema.antennaParameter (.int ↑(done.antennas + done'.antennas)) taken] := by
  intro one two whole
  -- all three runs are answered by the same keys, so it is enough to compare their deeds
  obtain ⟨takes, htakes⟩ := hstore
  have hone : one.chronicle.effects = one.chronicle.deeds.map (Deed.entry takes) :=
    effects_run htakes _ _ _
  have htwo : two.chronicle.effects = two.chronicle.deeds.map (Deed.entry takes) :=
    effects_run htakes _ _ _
  have hwhole : whole.chronicle.effects = whole.chronicle.deeds.map (Deed.entry takes) :=
    effects_run htakes _ _ _
  refine ⟨fun error herror => d.run_append_of_error herror rest, fun done hdone => ?_⟩
  obtain ⟨deeds, hdeeds, hendpoint, hrest⟩ := deeds_run_append hdone rest
  refine ⟨takes Schema.antennaParameter, deeds.map (Deed.entry takes), ?_, hendpoint, ?_⟩
  · rw [hone, hdeeds, List.map_append]
    rfl
  rcases hrest with ⟨error, htwoError, hwholeError, hwholeDeeds⟩ |
    ⟨done', deeds', htwoOk, hwholeOk, htwoDeeds, hwholeDeeds⟩
  · refine ⟨fun error' => ?_, fun _ _ => ?_, fun done' htwoOk => ?_⟩
    · rw [hwholeError, htwoError]
    · rw [hwhole, hwholeDeeds, List.map_append, htwo]
    · rw [htwoError] at htwoOk
      cases htwoOk
  · refine ⟨fun error => ?_, fun error htwoError => ?_, fun done'' htwoDone => ?_⟩
    · rw [hwholeOk, htwoOk]
      constructor
      · intro h; cases h
      · intro h; cases h
    · rw [htwoOk] at htwoError
      cases htwoError
    · rw [htwoOk] at htwoDone
      cases htwoDone
      refine ⟨hwholeOk, deeds'.map (Deed.entry takes), ?_, ?_⟩
      · rw [htwo, htwoDeeds, List.map_append]
        rfl
      · rw [hwhole, hwholeDeeds, List.map_append, List.map_append]
        rfl

/-- Two profiles with a chirp each. The first chirp is sent again, and the store refuses the
tally: it is still counted once, and the tallies add up. -/
theorem run_append_chirps :
    let first : List Item := [.ok (.ofRaw 1 "chirpCfg 0 0".toList)]
    let rest : List Item := [.ok (.ofRaw 1 "channelCfg 15 3".toList),
      .ok (.ofRaw 2 "chirpCfg 1 1".toList)]
    let d := Scripted.driver [Schema.antennaParameter]
    (d.run ⟨first, false⟩ [.ok "Error".toList] []).result = .ok ⟨1, 0, 1, 1⟩ ∧
      (d.run ⟨first ++ rest, false⟩ [.ok "Error".toList] []).result =
        .ok ⟨3, 0, 3, 2⟩ := by
  intro first rest d
  have hone : (d.run ⟨first, false⟩ [.ok "Error".toList] []).result = .ok ⟨1, 0, 1, 1⟩ := by
    decide +kernel
  have hstore : d.store.DecidesByKey := Store.keeping_decidesByKey _
  obtain ⟨_, _, _, _, _, _, hok⟩ := (run_append hstore first rest false _ _).2 _ hone
  exact ⟨hone, (hok ⟨2, 0, 3, 1⟩ (by decide +kernel)).1⟩

end Driver

end RadarProfile
