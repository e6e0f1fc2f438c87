import RadarProfile.Proofs.Aftermath
import RadarProfile.Proofs.Conversion
import Mathlib.Logic.ExistsUnique

set_option autoImplicit false

/-! # How a run ends

A run that succeeds accounts for every line: each is skipped or carried out, and the totals
say so (`run_ok_accounts`). A run that fails stops at the first item that is fatal, after
the deeds of the items before it, and nothing after that item matters
(`run_error_stops_once`). -/

namespace RadarProfile

/-! ## The names of parameters

The antenna tally has a name of its own, so a write under that name is the tally. -/

/-- No rule names the antenna tally. -/
theorem Schema.parameter_ne_antennaParameter :
    ∀ rule ∈ Schema.rules, rule.parameter ≠ Schema.antennaParameter := by decide

theorem exists_rule_of_mem_parametersOf {command : Text} {parameters : List Parameter}
    (h : parametersOf command = .ok parameters) {parameter : Parameter}
    (hmem : parameter ∈ parameters) :
    ∃ rule ∈ Schema.rules, rule.parameter = parameter.name ∧
      ∃ token, rule.transform.convert? token = some parameter.value := by
  unfold parametersOf at h
  cases hcommand : Command.ofText? command with
  | none =>
      rw [hcommand] at h
      cases h
      exact absurd hmem List.not_mem_nil
  | some c =>
      rw [hcommand] at h
      exact Command.exists_rule_of_mem_parametersFrom h hmem

theorem Endpoint.Performs.exists_rule {σ : Type} {endpoint : Endpoint σ} {marker : Text}
    {lines : List Line} {turns : List Turn} {state after : σ}
    (h : endpoint.Performs marker lines state turns after) {parameter : Parameter}
    (hmem : parameter ∈ turns.flatMap Turn.parameters) :
    ∃ rule ∈ Schema.rules, rule.parameter = parameter.name := by
  obtain ⟨turn, hturn, hparameter⟩ := List.mem_flatMap.mp hmem
  obtain ⟨rule, hrule, hname, -⟩ :=
    exists_rule_of_mem_parametersOf (h.of_mem_turns hturn).2 hparameter
  exact ⟨rule, hrule, hname⟩

/-- The turns of carried-out lines write nothing under the name of the antenna tally. -/
theorem Endpoint.Performs.name_ne {σ : Type} {endpoint : Endpoint σ} {marker : Text}
    {lines : List Line} {turns : List Turn} {state after : σ}
    (h : endpoint.Performs marker lines state turns after) {parameter : Parameter}
    (hmem : parameter ∈ turns.flatMap Turn.parameters) :
    parameter.name ≠ Schema.antennaParameter := by
  obtain ⟨rule, hrule, hname⟩ := h.exists_rule hmem
  rw [← hname]
  exact Schema.parameter_ne_antennaParameter rule hrule

/-! ## Counting lines -/

theorem Line.command?_eq (line : Line) :
    line.command? = if line.kind = .command then some line.text else none := by
  unfold Line.command?
  cases line.kind with
  | blank => rfl
  | comment => rfl
  | command => rfl

theorem filterMap_command?_eq (lines : List Line) :
    lines.filterMap Line.command? =
      (lines.filter fun line => line.kind = .command).map Line.text := by
  induction lines with
  | nil => rfl
  | cons line rest ih =>
      by_cases hkind : line.kind = .command
      · rw [List.filterMap_cons_some ((line.command?_eq).trans (if_pos hkind)), ih]
        simp only [List.filter_cons, hkind, decide_true, if_true, List.map_cons]
      · rw [List.filterMap_cons_none ((line.command?_eq).trans (if_neg hkind)), ih]
        simp only [List.filter_cons, hkind, decide_false, Bool.false_eq_true, if_false]

theorem skippedIn_eq (lines : List Line) :
    skippedIn lines = lines.countP fun line => line.kind = .blank ∨ line.kind = .comment := by
  apply List.countP_congr
  intro line _
  rw [line.command?_eq]
  cases line.kind with
  | blank => simp
  | comment => simp
  | command => simp

/-- A line is skipped, or it is a command. -/
theorem length_commands_add_skippedIn (lines : List Line) :
    (lines.filterMap Line.command?).length + skippedIn lines = lines.length := by
  induction lines with
  | nil => rfl
  | cons line rest ih =>
      unfold skippedIn at ih ⊢
      cases hspoken : line.command? with
      | none =>
          rw [List.filterMap_cons_none hspoken, List.countP_cons_of_pos (by rw [hspoken]; rfl),
            List.length_cons]
          omega
      | some command =>
          rw [List.filterMap_cons_some hspoken,
            List.countP_cons_of_neg (by rw [hspoken]; exact Bool.false_ne_true),
            List.length_cons, List.length_cons]
          omega

theorem antennasOf_eq (text : Text) :
    antennasOf text = if (words text).head? = some "chirpCfg".toList then 1 else 0 := by
  unfold antennasOf Command.ofText?
  cases words text with
  | nil => rfl
  | cons keyword arguments =>
      show (if keyword = Schema.antennaKeyword then 1 else 0) =
        if some keyword = some Schema.antennaKeyword then 1 else 0
      simp only [Option.some.injEq]

theorem sum_antennas (lines : List Line) :
    ((lines.filterMap Line.command?).map antennasOf).sum =
      lines.countP fun line => line.kind = .command ∧
        (words line.text).head? = some "chirpCfg".toList := by
  rw [filterMap_command?_eq]
  induction lines with
  | nil => rfl
  | cons line rest ih =>
      rw [List.countP_cons]
      by_cases hkind : line.kind = .command
      · simp only [List.filter_cons, hkind, decide_true, if_true, List.map_cons,
          List.sum_cons, true_and, decide_eq_true_eq, antennasOf_eq line.text]
        rw [ih, Nat.add_comm]
      · simp only [List.filter_cons, hkind, decide_false, Bool.false_eq_true, if_false,
          false_and]
        exact ih

namespace Driver

variable {σ τ : Type} (d : Driver σ τ) {source : Source} {state : σ} {stored : τ}

/-! ## Success -/

/-- **What a run that succeeds accounts for.** All items were lines. The run took one turn
for each command among them, in their order: one or two sends of the command, then a write
of each of its parameters. The last deed, and the only write under its name, gives
`numTxAnt` the number of commands whose first word is `chirpCfg`. The totals count the
lines of either kind, these commands, and the writes. -/
theorem run_ok_accounts {summary : Summary}
    (h : (d.run source state stored).result = .ok summary) :
    ∃ (lines : List Line) (turns : List Turn), source.items = lines.map .ok ∧
      turns.map Turn.command =
        (lines.filter fun line => line.kind = .command).map Line.text ∧
      (∀ turn ∈ turns, (turn.sends = 1 ∨ turn.sends = 2) ∧
        parametersOf turn.command = .ok turn.parameters) ∧
      (d.run source state stored).chronicle.deeds =
        turns.flatMap Turn.deeds ++ [.write ⟨"numTxAnt".toList, .int summary.antennas⟩] ∧
      (∀ parameter ∈ turns.flatMap Turn.parameters,
        parameter.name ≠ "numTxAnt".toList) ∧
      summary.commands = (lines.countP fun line => line.kind = .command) ∧
      summary.skipped = (lines.countP fun line => line.kind = .blank ∨ line.kind = .comment) ∧
      summary.commands + summary.skipped = lines.length ∧
      summary.antennas = (lines.countP fun line => line.kind = .command ∧
        (words line.text).head? = some "chirpCfg".toList) ∧
      summary.parameters = (d.run source state stored).chronicle.writes.length := by
  obtain ⟨lines, turns, after, hitems, hlines⟩ := d.performs_of_ok h
  have hrun := d.run_of_performs hitems hlines stored
  rw [hrun.result_eq] at h
  cases h
  -- there is one turn for each command
  have hcommands : turns.length = (lines.filterMap Line.command?).length := by
    rw [← hlines.commands, List.length_map]
  refine ⟨lines, turns, hitems, ?_, fun turn hturn => hlines.of_mem_turns hturn,
    hrun.deeds_eq, fun parameter hmem => hlines.name_ne hmem, ?_, skippedIn_eq lines, ?_, ?_,
    ?_⟩
  · rw [hlines.commands, filterMap_command?_eq]
  · show turns.length = _
    rw [hcommands, filterMap_command?_eq, List.length_map, List.countP_eq_length_filter]
  · show turns.length + skippedIn lines = lines.length
    rw [hcommands, length_commands_add_skippedIn]
  · show (turns.map fun turn => antennasOf turn.command).sum = _
    rw [← sum_antennas, ← hlines.commands, List.map_map]
    rfl
  · show (turns.flatMap Turn.parameters).length + 1 = _
    rw [hrun.writes_eq, List.filterMap_append, filterMap_parameter?_turns,
      List.length_append]
    rfl

/-- A comment, a chirp that is sent again, and a command with a parameter that is refused. -/
theorem run_ok_accounts_retried_chirp :
    let lines : List Line := [.ofRaw 1 "% radar".toList, .ofRaw 2 "chirpCfg 0 0".toList,
      .ofRaw 3 "channelCfg 15 3\r".toList]
    let run := (Scripted.driver ["numRxAnt".toList]).run (.ofItems (lines.map .ok))
      [.ok "Error".toList] []
    run.result = .ok ⟨2, 1, 3, 1⟩ ∧ ∃ turns : List Turn,
      turns.map Turn.command = ["chirpCfg 0 0".toList, "channelCfg 15 3".toList] ∧
      run.chronicle.deeds =
        turns.flatMap Turn.deeds ++ [.write ⟨"numTxAnt".toList, .int 1⟩] ∧
      run.chronicle.writes.length = 3 := by
  intro lines run
  have hresult : run.result = .ok ⟨2, 1, 3, 1⟩ := by decide +kernel
  obtain ⟨lines', turns, hitems, hcommands, _, hdeeds, _, _, _, _, _, hwrites⟩ :=
    run_ok_accounts (Scripted.driver ["numRxAnt".toList]) hresult
  have hlines : lines = lines' :=
    (List.map_inj_right fun _ _ h => Except.ok.inj h).mp hitems
  refine ⟨hresult, turns, ?_, hdeeds, hwrites.symm⟩
  rw [hcommands, ← hlines]
  decide +kernel

/-! ## Failure -/

theorem take_length_of_stop {items rest : List Item} {lines : List Line} {item : Item}
    (h : items = lines.map .ok ++ item :: rest) :
    items.take lines.length = lines.map .ok := by
  rw [h, List.take_left' (List.length_map _)]

theorem getElem?_length_of_stop {items rest : List Item} {lines : List Line} {item : Item}
    (h : items = lines.map .ok ++ item :: rest) : items[lines.length]? = some item := by
  rw [h, List.getElem?_append_right (Nat.le_of_eq (List.length_map _)), List.length_map,
    Nat.sub_self]
  rfl

/-- Items up to and with one that ends a run. -/
theorem take_succ_of_stop {items : List Item} {k : Nat} {lines : List Line} {item : Item}
    (hbefore : items.take k = lines.map .ok) (hitem : items[k]? = some item) :
    items.take (k + 1) = lines.map .ok ++ [item] := by
  rw [List.take_add_one, hbefore, hitem]
  rfl

/-- **What comes after the item that ends a run does not matter.** -/
theorem run_of_same_stop {lines : List Line} {item : Item} {rest : List Item}
    {turns : List Turn} {mid after : σ} {sent : List Text} {error : Error}
    (hitems : source.items = lines.map .ok ++ item :: rest)
    (hlines : d.endpoint.Performs d.marker lines state turns mid)
    (hstop : d.endpoint.StopsAt d.marker mid item sent error after) (stored : τ)
    (more : List Item) :
    d.run ⟨source.items.take (lines.length + 1) ++ more, source.isRead⟩ state stored =
      d.run source state stored := by
  have hupto := take_succ_of_stop (take_length_of_stop hitems) (getElem?_length_of_stop hitems)
  have hcut := (d.run_of_stopsAt
    (show (Source.mk (source.items.take (lines.length + 1)) source.isRead).items = _ from
      hupto) hlines hstop stored).result_eq
  -- both sources begin with the items up to the fatal one, and that part fails already
  have hsource := d.run_append_of_error hcut (source.items.drop (lines.length + 1))
  rw [List.take_append_drop] at hsource
  exact (d.run_append_of_error hcut more).trans hsource.symm

/-- Lines that are carried out do not go beyond an item that ends the run. -/
theorem le_of_stopsAt {items : List Item} {k k' : Nat} {lines lines' : List Line}
    {turns turns' : List Turn} {mid mid' after : σ} {item : Item} {sent : List Text}
    {error : Error} (hbefore : items.take k = lines.map .ok) (hitem : items[k]? = some item)
    (hlines : d.endpoint.Performs d.marker lines state turns mid)
    (hstop : d.endpoint.StopsAt d.marker mid item sent error after) (stored : τ)
    (hbefore' : items.take k' = lines'.map .ok)
    (hlines' : d.endpoint.Performs d.marker lines' state turns' mid') : k' ≤ k := by
  refine Nat.le_of_not_lt fun hlt => ?_
  -- otherwise the items up to the fatal one make a run that fails and succeeds
  have hupto := take_succ_of_stop hbefore hitem
  have hupto' : items.take (k + 1) = (lines'.take (k + 1)).map .ok := by
    rw [List.map_take, ← hbefore', List.take_take, Nat.min_eq_left (by omega)]
  rw [← List.take_append_drop (k + 1) lines'] at hlines'
  obtain ⟨turns'', mid'', hpart⟩ := hlines'.of_append
  have hfails := d.run_of_stopsAt
    (show (Source.ofItems (items.take (k + 1))).items = _ from hupto) hlines hstop stored
  have hsucceeds := d.run_of_performs
    (show (Source.ofItems (items.take (k + 1))).items = _ from hupto') hpart stored
  have hresult := hfails.result_eq.symm.trans hsucceeds.result_eq
  cases hresult

/-- **A run that fails stops at exactly one item.** All items before it are lines that are
carried out; the deeds are those of their turns, followed by the sends of that item alone.
Nothing is written under the name of the antenna tally, and whatever items come after, the
run leaves the same behind. -/
theorem run_error_stops_once {error : Error}
    (h : (d.run source state stored).result = .error error) :
    (∃! k, ∃ (lines : List Line) (turns : List Turn) (mid : σ) (item : Item)
        (sent : List Text),
      source.items.take k = lines.map .ok ∧ source.items[k]? = some item ∧
      d.endpoint.Performs d.marker lines state turns mid ∧
      d.endpoint.StopsAt d.marker mid item sent error
        (d.run source state stored).endpoint ∧
      (d.run source state stored).chronicle.deeds =
        turns.flatMap Turn.deeds ++ sent.map .send ∧
      ∀ rest, d.run ⟨source.items.take (k + 1) ++ rest, source.isRead⟩ state stored =
        d.run source state stored) ∧
    ∀ parameter ∈ (d.run source state stored).chronicle.writes,
      parameter.name ≠ Schema.antennaParameter := by
  obtain ⟨lines, item, rest, turns, mid, sent, after, hitems, hlines, hstop⟩ :=
    d.stopsAt_of_error h
  have hrun := d.run_of_stopsAt hitems hlines hstop stored
  have hbefore := take_length_of_stop hitems
  have hitem := getElem?_length_of_stop hitems
  have hafter := d.run_of_same_stop hitems hlines hstop stored
  constructor
  · refine ⟨lines.length, ⟨lines, turns, mid, item, sent, hbefore, hitem, hlines, ?_,
      hrun.deeds_eq, hafter⟩, ?_⟩
    · rw [hrun.endpoint_eq]
      exact hstop
    · rintro k ⟨lines', turns', mid', item', sent', hbefore', hitem', hlines', hstop', _⟩
      exact Nat.le_antisymm
        (d.le_of_stopsAt hbefore hitem hlines hstop stored hbefore' hlines')
        (d.le_of_stopsAt hbefore' hitem' hlines' hstop' stored hbefore hlines)
  · intro parameter hmem
    rw [hrun.writes_eq, List.filterMap_append, filterMap_parameter?_turns,
      filterMap_parameter?_sends, List.append_nil] at hmem
    exact hlines.name_ne hmem

/-- The second token of a command is malformed: the first one is not written either, and it
does not matter what comes after. -/
theorem run_error_stops_once_at_malformed :
    let items : List Item := [.ok (.ofRaw 1 "chirpCfg 0 0".toList),
      .ok (.ofRaw 2 "channelCfg 15 x".toList), .ok (.ofRaw 3 "sensorStart".toList)]
    let d := Scripted.driver []
    let run := d.run (.ofItems items) [.ok "Error".toList] []
    run.result = .error (.conversion ⟨"channelCfg".toList, 2, "x".toList, .int⟩) ∧
      run.chronicle.writes = [] ∧
      ∃ k, ∀ rest,
        d.run (.ofItems (items.take (k + 1) ++ rest)) [.ok "Error".toList] [] = run := by
  intro items d run
  have hresult : run.result =
      .error (.conversion ⟨"channelCfg".toList, 2, "x".toList, .int⟩) := by decide +kernel
  obtain ⟨⟨k, ⟨_, _, _, _, _, _, _, _, _, _, hafter⟩, _⟩, _⟩ :=
    run_error_stops_once d hresult
  exact ⟨hresult, by decide +kernel, k, hafter⟩

end Driver

end RadarProfile
