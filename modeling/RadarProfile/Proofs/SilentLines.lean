import Mathlib.Data.List.Basic
import RadarProfile.Proofs.Indifference
import RadarProfile.Proofs.Outcome

set_option autoImplicit false

/-! # Lines without a command

A line without a command is silent: a run passes over it, and nothing but the count of such
lines shows that it was there. Lines are therefore carried out, or end a run, by their
commands alone (`Endpoint.Performs.of_commands`, `Endpoint.StopsAt.of_command`), and two runs
over lines with the same commands do the same (`Driver.run_same_of_commands`). -/

namespace RadarProfile

namespace Endpoint

variable {σ : Type} {endpoint : Endpoint σ} {marker : Text} {state after : σ}

theorem performs_silent {lines : List Line} (h : ∀ line ∈ lines, line.command? = none)
    (state : σ) : endpoint.Performs marker lines state [] state := by
  induction lines with
  | nil => exact .nil
  | cons line rest ih =>
      exact .passOver (h line List.mem_cons_self)
        (ih fun other hother => h other (List.mem_cons_of_mem _ hother))

/-- **Lines are carried out by their commands**: other lines with the same commands take the
same turns. -/
theorem Performs.of_commands {lines lines' : List Line} {turns : List Turn}
    (h : endpoint.Performs marker lines state turns after)
    (hcommands : lines'.filterMap Line.command? = lines.filterMap Line.command?) :
    endpoint.Performs marker lines' state turns after := by
  -- each command is found again behind silent lines
  induction h generalizing lines' with
  | nil => exact performs_silent (List.filterMap_eq_nil_iff.mp hcommands) _
  | passOver silent _ ih =>
      rw [List.filterMap_cons_none silent] at hcommands
      exact ih hcommands
  | turn spoken accepted converted _ ih =>
      rw [List.filterMap_cons_some spoken, List.filterMap_eq_cons_iff] at hcommands
      obtain ⟨before, line', rest', rfl, hsilent, hspoken, hrest⟩ := hcommands
      exact (performs_silent hsilent _).append (.turn hspoken accepted converted (ih hrest))

theorem StopsAt.exists_command {line : Line} {sent : List Text} {error : Error}
    (h : endpoint.StopsAt marker state (.ok line) sent error after) :
    ∃ command, line.command? = some command := by
  cases h with
  | givenUp spoken _ => exact ⟨_, spoken⟩
  | malformed spoken _ _ => exact ⟨_, spoken⟩

/-- **A line ends a run by its command**: another line with the same command ends it too. -/
theorem StopsAt.of_command {line line' : Line} {sent : List Text} {error : Error}
    (h : endpoint.StopsAt marker state (.ok line) sent error after)
    (hcommand : line'.command? = line.command?) :
    endpoint.StopsAt marker state (.ok line') sent error after := by
  cases h with
  | givenUp spoken failed => exact .givenUp (hcommand.trans spoken) failed
  | malformed spoken accepted refused =>
      exact .malformed (hcommand.trans spoken) accepted refused

end Endpoint

/-- Lines up to a command are found again in other lines with the same commands. -/
theorem exists_split_of_commands {before rest lines' : List Line} {line : Line}
    {command : Text} (hspoken : line.command? = some command)
    (hcommands : lines'.filterMap Line.command? =
      (before ++ line :: rest).filterMap Line.command?) :
    ∃ before' line' rest', lines' = before' ++ line' :: rest' ∧
      before'.filterMap Line.command? = before.filterMap Line.command? ∧
      line'.command? = line.command? := by
  rw [List.filterMap_append, List.filterMap_cons_some hspoken,
    List.filterMap_eq_append_iff] at hcommands
  obtain ⟨first', second', rfl, hfirst, hsecond⟩ := hcommands
  obtain ⟨silent', line', rest', rfl, hsilent, hline, _⟩ := List.filterMap_eq_cons_iff.mp hsecond
  refine ⟨first' ++ silent', line', rest', (List.append_assoc ..).symm, ?_,
    hline.trans hspoken.symm⟩
  rw [List.filterMap_append, List.filterMap_eq_nil_iff.mpr hsilent, List.append_nil, hfirst]

theorem exists_lines_of_map_ok {lines before : List Line} {item : Item} {rest : List Item}
    (h : (lines.map .ok : List Item) = before.map .ok ++ item :: rest) :
    ∃ line others, item = .ok line ∧ lines = before ++ line :: others := by
  obtain ⟨before', others, rfl, hbefore, hothers⟩ := List.map_eq_append_iff.mp h
  obtain ⟨line, others, rfl, hline, _⟩ := List.map_eq_cons_iff.mp hothers
  refine ⟨line, others, hline.symm, ?_⟩
  rw [(List.map_inj_right fun _ _ h => Except.ok.inj h).mp hbefore]

namespace Driver

variable {σ τ : Type} (d : Driver σ τ)

/-- **Runs over the same commands** come to the same: the effects, the endpoint and the store
are the same, and so is the result, but for the number of lines passed over. -/
theorem run_same_of_commands {lines lines' : List Line}
    (h : lines'.filterMap Line.command? = lines.filterMap Line.command?) (isRead : Bool)
    (state : σ) (stored : τ) :
    let run := d.run ⟨lines.map .ok, isRead⟩ state stored
    let run' := d.run ⟨lines'.map .ok, isRead⟩ state stored
    run.chronicle.effects = run'.chronicle.effects ∧ run.endpoint = run'.endpoint ∧
      run.store = run'.store ∧
      ((∃ error, run.result = .error error ∧ run'.result = .error error) ∨
        ∃ summary : Summary, run.result = .ok { summary with skipped := skippedIn lines } ∧
          run'.result = .ok { summary with skipped := skippedIn lines' }) := by
  intro run run'
  rcases d.endpoint.performs_or_stops d.marker (lines.map .ok) state with
    ⟨performed, turns, after, hitems, hlines⟩ |
    ⟨before, item, rest, turns, mid, sent, error, after, hitems, hlines, hstop⟩
  · -- the other lines are carried out in the same turns
    obtain rfl := (List.map_inj_right fun _ _ h => Except.ok.inj h).mp hitems
    have hrun := d.run_of_performs
      (show (Source.mk (lines.map .ok) isRead).items = _ from rfl) hlines stored
    have hrun' := d.run_of_performs
      (show (Source.mk (lines'.map .ok) isRead).items = _ from rfl) (hlines.of_commands h) stored
    obtain ⟨hstore, heffects⟩ := run_same_of_deeds d.endpoint d.marker d.store
      (hrun.deeds_eq.trans hrun'.deeds_eq.symm)
    exact ⟨heffects, hrun.endpoint_eq.trans hrun'.endpoint_eq.symm, hstore,
      Or.inr ⟨⟨_, skippedIn lines, _, _⟩, hrun.result_eq, hrun'.result_eq⟩⟩
  · -- the line that ends the first run has a counterpart that ends the second
    obtain ⟨line, others, rfl, rfl⟩ := exists_lines_of_map_ok hitems
    obtain ⟨command, hspoken⟩ := hstop.exists_command
    obtain ⟨before', line', others', rfl, hbefore, hline⟩ := exists_split_of_commands hspoken h
    have hitems' : (Source.mk ((before' ++ line' :: others').map .ok) isRead).items =
        before'.map .ok ++ .ok line' :: others'.map .ok := List.map_append
    have hrun := d.run_of_stopsAt
      (show (Source.mk ((before ++ line :: others).map .ok) isRead).items = _ from hitems)
      hlines hstop stored
    have hrun' := d.run_of_stopsAt hitems' (hlines.of_commands hbefore)
      (hstop.of_command hline) stored
    obtain ⟨hstore, heffects⟩ := run_same_of_deeds d.endpoint d.marker d.store
      (hrun.deeds_eq.trans hrun'.deeds_eq.symm)
    exact ⟨heffects, hrun.endpoint_eq.trans hrun'.endpoint_eq.symm, hstore,
      Or.inl ⟨error, hrun.result_eq, hrun'.result_eq⟩⟩

end Driver

end RadarProfile
