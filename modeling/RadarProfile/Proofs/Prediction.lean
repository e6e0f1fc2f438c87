import RadarProfile.Proofs.Aftermath

set_option autoImplicit false

/-! # A dry run predicts every live run

A dry run accepts each command at once, so it comes to the end of the items unless one of
them cannot be read or holds a token that cannot be converted. A live run takes the same
turns in the same order, up to the first command that its endpoint does not accept. What
the dry run sends and writes is therefore known beforehand from the items alone
(`commandsReached`), and the live run never goes beyond it. -/

namespace RadarProfile

/-! ## What the items alone decide -/

/-- The commands that a run comes to if each is accepted. The last one is that of the first
line with a malformed token, if no unreadable item comes before it. -/
def commandsReached : List Item → List Text
  | [] => []
  | .error _ :: _ => []
  | .ok line :: rest =>
    match line.command? with
    | none => commandsReached rest
    | some command =>
      match parametersOf command with
      | .error _ => [command]
      | .ok _ => command :: commandsReached rest

/-- An error that lies in an item and not in the endpoint: a line could not be read, or a
token could not be converted. -/
def Error.liesInItem : Error → Bool
  | reading _ => true
  | conversion _ => true
  | _ => false

namespace Endpoint

variable {σ : Type} {endpoint : Endpoint σ} {marker : Text}

theorem Fails.liesInItem_eq {command : Text} {sends : Nat} {error : Error} {state after : σ}
    (h : endpoint.Fails marker command state sends error after) :
    error.liesInItem = false := by
  cases h with
  | undelivered _ => rfl
  | retryUndelivered _ _ _ => rfl
  | refused _ _ _ _ => rfl

/-- Lines that are carried out are all reached, and so is what comes after them. -/
theorem Performs.commandsReached_append {lines : List Line} {turns : List Turn}
    {state after : σ} (h : endpoint.Performs marker lines state turns after)
    (rest : List Item) :
    commandsReached (lines.map .ok ++ rest) =
      turns.map Turn.command ++ commandsReached rest := by
  induction h with
  | nil => rfl
  | passOver silent _ ih =>
      rw [List.map_cons, List.cons_append, commandsReached, silent]
      exact ih
  | turn spoken _ converted _ ih =>
      rw [List.map_cons, List.cons_append, commandsReached, spoken]
      simp only [converted, ih, List.map_cons, List.cons_append]

theorem StopsAt.prefix_commandsReached {item : Item} {sent : List Text} {error : Error}
    {state after : σ} (h : endpoint.StopsAt marker state item sent error after)
    (rest : List Item) : sent.take 1 <+: commandsReached (item :: rest) := by
  cases h with
  | unreadable => exact List.nil_prefix
  | @givenUp line command _ _ _ spoken failed =>
      rw [take_one_replicate failed.sends_eq, commandsReached, spoken]
      cases hparameters : parametersOf command with
      | error fault => simp only [hparameters, List.prefix_rfl]
      | ok parameters => simp only [hparameters, List.cons_prefix_cons, List.nil_prefix, and_self]
  | malformed spoken accepted refused =>
      rw [take_one_replicate accepted.sends_eq, commandsReached, spoken]
      simp only [refused, List.prefix_rfl]

/-- An item whose error lies in it is the last one reached. -/
theorem StopsAt.commandsReached_eq {item : Item} {sent : List Text} {error : Error}
    {state after : σ} (h : endpoint.StopsAt marker state item sent error after)
    (hitem : error.liesInItem = true) (rest : List Item) :
    commandsReached (item :: rest) = sent.take 1 := by
  cases h with
  | unreadable => rfl
  | givenUp spoken failed => rw [failed.liesInItem_eq] at hitem; cases hitem
  | malformed spoken accepted refused =>
      rw [take_one_replicate accepted.sends_eq, commandsReached, spoken]
      simp only [refused]

theorem Performs.converted_of_mem {lines : List Line} {turns : List Turn} {state after : σ}
    (h : endpoint.Performs marker lines state turns after) {line : Line} {command : Text}
    (hline : line ∈ lines) (hspoken : line.command? = some command) :
    ∃ parameters, parametersOf command = .ok parameters := by
  induction h with
  | nil => exact absurd hline List.not_mem_nil
  | passOver silent _ ih =>
      rcases List.mem_cons.mp hline with rfl | hline
      · rw [silent] at hspoken; cases hspoken
      · exact ih hline
  | turn spoken _ converted _ ih =>
      rcases List.mem_cons.mp hline with rfl | hline
      · rw [spoken] at hspoken
        cases hspoken
        exact ⟨_, converted⟩
      · exact ih hline

end Endpoint

/-! ## The dry run -/

def Turn.once (turn : Turn) : Turn := { turn with sends := 1 }

theorem flatMap_parameters_once (turns : List Turn) :
    (turns.map Turn.once).flatMap Turn.parameters = turns.flatMap Turn.parameters := by
  rw [List.flatMap_map]
  rfl

theorem filterMap_command?_once (turns : List Turn) :
    ((turns.map Turn.once).flatMap Turn.deeds).filterMap Deed.command? =
      turns.map Turn.command := by
  induction turns with
  | nil => rfl
  | cons turn rest ih =>
      rw [List.map_cons, List.flatMap_cons, List.filterMap_append, ih,
        Turn.filterMap_command?_deeds]
      rfl

namespace DryRun

theorem marked (marker command : Text) :
    Text.occursIn marker (command ++ '\n' :: marker) = true := by
  have h := Text.occursIn_append_left (command ++ ['\n']) marker
  rwa [List.append_assoc] at h

/-- **A dry run accepts every command at once.** -/
theorem accepts (marker command : Text) (count : Nat) :
    (endpoint marker).Accepts marker command count 1 (count + 1) :=
  .atOnce rfl (marked marker command)

theorem not_fails {marker command : Text} {count sends after : Nat} {error : Error} :
    ¬ (endpoint marker).Fails marker command count sends error after := by
  intro h
  cases h with
  | undelivered sent => cases sent
  | retryUndelivered sent unmarked _ =>
      cases sent
      rw [marked marker command] at unmarked
      cases unmarked
  | refused sent unmarked _ _ =>
      cases sent
      rw [marked marker command] at unmarked
      cases unmarked

/-- Lines that some endpoint carries out are carried out in a dry run, with one send for
each command. -/
theorem performs_of_performs {σ : Type} {live : Endpoint σ} {marker' : Text}
    {lines : List Line} {turns : List Turn} {state after : σ}
    (h : live.Performs marker' lines state turns after) (marker : Text) (count : Nat) :
    (endpoint marker).Performs marker lines count (turns.map Turn.once)
      (count + turns.length) := by
  induction h generalizing count with
  | nil => exact .nil
  | passOver silent _ ih => exact .passOver silent (ih count)
  | @turn _ _ command _ _ _ _ _ turns spoken _ converted _ ih =>
      have hlength : count + (turns.length + 1) = count + 1 + turns.length := by omega
      rw [List.length_cons, hlength]
      exact .turn spoken (accepts marker command count) converted (ih (count + 1))

/-- An item whose error lies in it ends a dry run in the same way. -/
theorem stopsAt_of_stopsAt {σ : Type} {live : Endpoint σ} {marker' : Text} {item : Item}
    {sent : List Text} {error : Error} {state after : σ}
    (h : live.StopsAt marker' state item sent error after)
    (hitem : error.liesInItem = true) (marker : Text) (count : Nat) :
    ∃ count', (endpoint marker).StopsAt marker count item (sent.take 1) error count' := by
  cases h with
  | unreadable => exact ⟨count, .unreadable⟩
  | givenUp spoken failed => rw [failed.liesInItem_eq] at hitem; cases hitem
  | @malformed line command _ _ _ spoken accepted refused =>
      rw [Endpoint.take_one_replicate accepted.sends_eq]
      exact ⟨count + 1, .malformed spoken (accepts marker command count) refused⟩

/-- A dry run ends for no other reason. -/
theorem liesInItem_of_stopsAt {marker : Text} {count after : Nat} {item : Item}
    {sent : List Text} {error : Error}
    (h : (endpoint marker).StopsAt marker count item sent error after) :
    error.liesInItem = true := by
  cases h with
  | unreadable => rfl
  | givenUp spoken failed => exact absurd failed not_fails
  | malformed spoken accepted refused => rfl

/-! ### Both runs of the same items -/

variable {σ τ τ' : Type} {d : Driver σ τ} {source : Source} {state : σ} {stored : τ}
  (store : Store τ') (marker : Text) (count : Nat) (stored' : τ')

def driver : Driver Nat τ' := ⟨endpoint marker, store, marker⟩

/-- **A dry run sends each command that it comes to exactly once.** -/
theorem sends_run :
    ((driver store marker).run source count stored').chronicle.sends =
      commandsReached source.items := by
  rcases (endpoint marker).performs_or_stops marker source.items count with
    ⟨lines, turns, after, hitems, h⟩ |
    ⟨lines, item, rest, turns, mid, sent, error, after, hitems, h, hstop⟩
  · have hreached := h.commandsReached_append []
    rw [List.append_nil, ← hitems] at hreached
    have hdry := performs_of_performs h marker count
    rw [((driver store marker).run_of_performs hitems hdry stored').sends_eq, hreached,
      List.filterMap_append, filterMap_command?_once]
    rfl
  · have hitem := liesInItem_of_stopsAt hstop
    have hdry := performs_of_performs h marker count
    obtain ⟨after', hstop'⟩ :=
      stopsAt_of_stopsAt hstop hitem marker (count + turns.length)
    rw [((driver store marker).run_of_stopsAt hitems hdry hstop' stored').sends_eq, hitems,
      h.commandsReached_append, hstop.commandsReached_eq hitem, List.filterMap_append,
      filterMap_command?_once, filterMap_command?_sends]

/-- A live run dispatches no other commands, and in no other order. -/
theorem dispatches_prefix_commandsReached (d : Driver σ τ) (source : Source) (state : σ)
    (stored : τ) :
    (d.run source state stored).chronicle.dispatches <+: commandsReached source.items := by
  rcases d.endpoint.performs_or_stops d.marker source.items state with
    ⟨lines, turns, after, hitems, h⟩ |
    ⟨lines, item, rest, turns, mid, sent, error, after, hitems, h, hstop⟩
  · have hreached := h.commandsReached_append []
    rw [List.append_nil, ← hitems] at hreached
    rw [(d.run_of_performs hitems h stored).dispatches_eq, hreached]
    exact List.prefix_append _ _
  · rw [(d.run_of_stopsAt hitems h hstop stored).dispatches_eq, hitems,
      h.commandsReached_append]
    exact (List.prefix_append_right_inj _).mpr (hstop.prefix_commandsReached rest)

/-- A live run that succeeds is repeated by the dry run. -/
theorem run_of_ok {summary : Summary}
    (h : (d.run source state stored).result = .ok summary) :
    ((driver store marker).run source count stored').result = .ok summary ∧
      ((driver store marker).run source count stored').chronicle.writes =
        (d.run source state stored).chronicle.writes ∧
      ((driver store marker).run source count stored').endpoint =
        count + summary.commands := by
  obtain ⟨lines, turns, after, hitems, hlines⟩ := d.performs_of_ok h
  have hlive := d.run_of_performs hitems hlines stored
  have hdry := (driver store marker).run_of_performs hitems
    (performs_of_performs hlines marker count) stored'
  rw [hlive.result_eq] at h
  cases h
  refine ⟨?_, ?_, hdry.endpoint_eq⟩
  · rw [hdry.result_eq, List.length_map, flatMap_parameters_once, List.map_map]
    rfl
  · rw [hdry.writes_eq, hlive.writes_eq, List.filterMap_append, List.filterMap_append,
      filterMap_parameter?_turns, filterMap_parameter?_turns, flatMap_parameters_once,
      List.map_map]
    rfl

/-- A live run that fails for an error in an item is repeated by the dry run. -/
theorem run_of_error {error : Error} (hitem : error.liesInItem = true)
    (h : (d.run source state stored).result = .error error) :
    ((driver store marker).run source count stored').result = .error error ∧
      ((driver store marker).run source count stored').chronicle.writes =
        (d.run source state stored).chronicle.writes := by
  obtain ⟨lines, item, rest, turns, mid, sent, after, hitems, hlines, hstop⟩ :=
    d.stopsAt_of_error h
  obtain ⟨after', hstop'⟩ := stopsAt_of_stopsAt hstop hitem marker (count + turns.length)
  have hlive := d.run_of_stopsAt hitems hlines hstop stored
  have hdry := (driver store marker).run_of_stopsAt hitems
    (performs_of_performs hlines marker count) hstop' stored'
  refine ⟨hdry.result_eq, ?_⟩
  rw [hdry.writes_eq, hlive.writes_eq, List.filterMap_append, List.filterMap_append,
    filterMap_parameter?_turns, filterMap_parameter?_turns, filterMap_parameter?_sends,
    filterMap_parameter?_sends, flatMap_parameters_once]

/-- A live run writes no more than the dry run, and in the same order. -/
theorem writes_prefix_run (d : Driver σ τ) (source : Source) (state : σ) (stored : τ) :
    (d.run source state stored).chronicle.writes <+:
      ((driver store marker).run source count stored').chronicle.writes := by
  cases hresult : (d.run source state stored).result with
  | ok summary =>
      have hwrites := (run_of_ok store marker count stored' hresult).2.1
      exact hwrites ▸ List.prefix_rfl
  | error error =>
      obtain ⟨lines, item, rest, turns, mid, sent, after, hitems, hlines, hstop⟩ :=
        d.stopsAt_of_error hresult
      have hdry := (driver store marker).deeds_prefix_of_performs hitems
        (performs_of_performs hlines marker count) stored'
      have hwrites := hdry.filterMap Deed.parameter?
      rw [filterMap_parameter?_turns, flatMap_parameters_once] at hwrites
      rw [(d.run_of_stopsAt hitems hlines hstop stored).writes_eq, List.filterMap_append,
        filterMap_parameter?_turns, filterMap_parameter?_sends, List.append_nil]
      exact hwrites

/-- **When a dry run succeeds**: all items can be read, and all commands converted. -/
theorem run_ok_iff :
    (∃ summary, ((driver store marker).run source count stored').result = .ok summary) ↔
      ∀ item ∈ source.items, ∃ line, item = .ok line ∧
        ∀ command, line.command? = some command →
          ∃ parameters, parametersOf command = .ok parameters := by
  constructor
  · rintro ⟨summary, hsummary⟩ item hmem
    obtain ⟨lines, turns, after, hitems, hlines⟩ :=
      (driver store marker).performs_of_ok hsummary
    rw [hitems] at hmem
    obtain ⟨line, hline, rfl⟩ := List.mem_map.mp hmem
    exact ⟨line, rfl, fun command hspoken => hlines.converted_of_mem hline hspoken⟩
  · intro hall
    cases hresult : ((driver store marker).run source count stored').result with
    | ok summary => exact ⟨summary, rfl⟩
    | error error =>
        -- the item that ends the run is one of those that the hypothesis speaks of
        obtain ⟨lines, item, rest, turns, mid, sent, after, hitems, hlines, hstop⟩ :=
          (driver store marker).stopsAt_of_error hresult
        obtain ⟨line, rfl, hconverted⟩ := hall item (by rw [hitems]; simp)
        cases hstop with
        | givenUp spoken failed => exact absurd failed not_fails
        | malformed spoken accepted refused =>
            obtain ⟨parameters, hparameters⟩ := hconverted _ spoken
            rw [refused] at hparameters
            cases hparameters

/-- **A dry run predicts every live run** over the same items, whatever the endpoint
answers and the stores do. The live run dispatches a prefix of what the dry run sends and
writes a prefix of what it writes; if it succeeds, or fails for an error in an item, the
dry run ends in the same way after the same writes, and so does every other live run that
succeeds. The dry run itself sends what it comes to once, and counts it; it succeeds
exactly if all items can be read and all commands converted. -/
theorem predicts_live_run (d : Driver σ τ) (store : Store τ') (source : Source) (state : σ)
    (stored : τ) (count : Nat) (stored' : τ') :
    let live := d.run source state stored
    let dry := (driver store d.marker).run source count stored'
    (WithRetries live.chronicle.dispatches live.chronicle.sends ∧
      live.chronicle.dispatches <+: dry.chronicle.sends ∧
      live.chronicle.writes <+: dry.chronicle.writes) ∧
    (∀ summary, live.result = .ok summary →
      dry.result = .ok summary ∧ dry.chronicle.writes = live.chronicle.writes ∧
      ∀ {σ' ρ : Type} (other : Driver σ' ρ) (state' : σ') (kept : ρ) (summary' : Summary),
        (other.run source state' kept).result = .ok summary' →
          summary' = summary ∧
            (other.run source state' kept).chronicle.writes = live.chronicle.writes) ∧
    (∀ fault, live.result = .error (.conversion fault) →
      dry.result = .error (.conversion fault) ∧
        dry.chronicle.writes = live.chronicle.writes) ∧
    (∀ fault, live.result = .error (.reading fault) →
      dry.result = .error (.reading fault) ∧
        dry.chronicle.writes = live.chronicle.writes) ∧
    ((∃ summary, dry.result = .ok summary) ↔
      ∀ item ∈ source.items, ∃ line, item = .ok line ∧
        ∀ command, line.command? = some command →
          ∃ parameters, parametersOf command = .ok parameters) ∧
    dry.chronicle.sends = commandsReached source.items ∧
    (∀ summary, dry.result = .ok summary → dry.endpoint = count + summary.commands) := by
  intro live dry
  refine ⟨⟨d.withRetries_run source state stored, ?_,
    writes_prefix_run store d.marker count stored' d source state stored⟩, ?_, ?_, ?_,
    run_ok_iff store d.marker count stored', sends_run store d.marker count stored', ?_⟩
  · show live.chronicle.dispatches <+: dry.chronicle.sends
    rw [sends_run store d.marker count stored']
    exact dispatches_prefix_commandsReached d source state stored
  · intro summary hlive
    obtain ⟨hresult, hwrites, _⟩ := run_of_ok store d.marker count stored' hlive
    refine ⟨hresult, hwrites, ?_⟩
    -- the other run succeeds, so the same dry run repeats it too
    intro σ' ρ other state' kept summary' hother
    obtain ⟨hresult', hwrites', _⟩ := run_of_ok store d.marker count stored' hother
    rw [hresult] at hresult'
    cases hresult'
    exact ⟨rfl, hwrites'.symm.trans hwrites⟩
  · intro fault hlive
    exact run_of_error store d.marker count stored' rfl hlive
  · intro fault hlive
    exact run_of_error store d.marker count stored' rfl hlive
  · intro summary hdry
    -- a dry run repeats itself
    exact (run_of_ok store d.marker count stored' hdry).2.2

/-- A live run in which the only command is sent twice is predicted to its totals. -/
theorem predicts_live_run_retried :
    let source := Source.ofItems [.ok (.ofRaw 1 "chirpCfg 0 0".toList)]
    ((Scripted.driver []).run source [.ok "Error".toList] []).result = .ok ⟨1, 0, 1, 1⟩ ∧
      ((driver (.keeping []) successMarker).run source 0 []).result = .ok ⟨1, 0, 1, 1⟩ := by
  intro source
  have hlive : ((Scripted.driver []).run source [.ok "Error".toList] []).result =
      .ok ⟨1, 0, 1, 1⟩ := by decide +kernel
  have h := predicts_live_run (Scripted.driver []) (.keeping []) source
    [.ok "Error".toList] [] 0 []
  exact ⟨hlive, (h.2.1 _ hlive).1⟩

end DryRun

end RadarProfile
