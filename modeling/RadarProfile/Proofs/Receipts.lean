import RadarProfile.Proofs.Aftermath

set_option autoImplicit false

/-! # What an endpoint receives

An endpoint with someone at the other end keeps a record of the commands that reach it
(`Endpoint.Records`): after a run it has received what it had before and then the sends of the
run, retries included (`received_run`). An endpoint with nobody at the other end is deaf: it
answers each send with a fault and stays as it is (`endpoint_run_of_isDeaf`). -/

namespace RadarProfile

namespace Endpoint

variable {σ : Type}

/-- While somebody `listens`, each send of a `clean` command is added to what was `received`.
After a response somebody still listens; after a fault nobody may. -/
structure Records (endpoint : Endpoint σ) (listens : σ → Prop) (clean : Text → Prop)
    (received : σ → List Text) : Prop where
  received_send : ∀ {state : σ} {command : Text}, listens state → clean command →
    received (endpoint.send state command).state = received state ++ [command]
  listens_send : ∀ {state : σ} {command response : Text}, listens state → clean command →
    (endpoint.send state command).response = .ok response →
      listens (endpoint.send state command).state

namespace Records

variable {endpoint : Endpoint σ} {listens : σ → Prop} {clean : Text → Prop}
  {received : σ → List Text} {marker command : Text} {state after : σ} {sends : Nat}
  {error : Error} {lines : List Line} {turns : List Turn}

theorem of_send (h : endpoint.Records listens clean received) (hstate : listens state)
    (hclean : clean command) {reply : Except DeliveryFault Text} {notes : List Note}
    (sent : endpoint.send state command = ⟨reply, notes, after⟩) :
    received after = received state ++ [command] ∧
      ∀ response, reply = .ok response → listens after := by
  have hreceived := h.received_send hstate hclean
  have hlistens : ∀ response, (endpoint.send state command).response = .ok response →
      listens (endpoint.send state command).state := fun _ => h.listens_send hstate hclean
  rw [sent] at hreceived hlistens
  exact ⟨hreceived, hlistens⟩

theorem of_accepts (h : endpoint.Records listens clean received) (hstate : listens state)
    (hclean : clean command) (haccepts : endpoint.Accepts marker command state sends after) :
    received after = received state ++ List.replicate sends command ∧ listens after := by
  cases haccepts with
  | atOnce sent _ =>
      obtain ⟨hreceived, hlistens⟩ := h.of_send hstate hclean sent
      exact ⟨hreceived, hlistens _ rfl⟩
  | onRetry sent _ resent _ =>
      obtain ⟨hfirst, hlistens⟩ := h.of_send hstate hclean sent
      obtain ⟨hsecond, hlistens'⟩ := h.of_send (hlistens _ rfl) hclean resent
      refine ⟨?_, hlistens' _ rfl⟩
      rw [hsecond, hfirst, List.append_assoc]
      rfl

theorem of_fails (h : endpoint.Records listens clean received) (hstate : listens state)
    (hclean : clean command)
    (hfails : endpoint.Fails marker command state sends error after) :
    received after = received state ++ List.replicate sends command := by
  -- somebody listens to the retry, because there was a first response
  cases hfails with
  | undelivered sent => exact (h.of_send hstate hclean sent).1
  | retryUndelivered sent _ resent =>
      obtain ⟨hfirst, hlistens⟩ := h.of_send hstate hclean sent
      rw [(h.of_send (hlistens _ rfl) hclean resent).1, hfirst, List.append_assoc]
      rfl
  | refused sent _ resent _ =>
      obtain ⟨hfirst, hlistens⟩ := h.of_send hstate hclean sent
      rw [(h.of_send (hlistens _ rfl) hclean resent).1, hfirst, List.append_assoc]
      rfl

/-- Lines that are carried out are received as the sends of their turns. -/
theorem of_performs (h : endpoint.Records listens clean received) (hstate : listens state)
    (hclean : ∀ line ∈ lines, ∀ command, line.command? = some command → clean command)
    (hperforms : endpoint.Performs marker lines state turns after) :
    received after =
        received state ++ (turns.flatMap Turn.deeds).filterMap Deed.command? ∧
      listens after := by
  induction hperforms with
  | nil => exact ⟨(List.append_nil _).symm, hstate⟩
  | passOver _ _ ih =>
      exact ih hstate fun line hline => hclean line (List.mem_cons_of_mem _ hline)
  | @turn line _ command sends parameters _ _ _ _ spoken accepted _ _ ih =>
      obtain ⟨hfirst, hlistens⟩ :=
        h.of_accepts hstate (hclean line List.mem_cons_self command spoken) accepted
      obtain ⟨hrest, hlistens'⟩ :=
        ih hlistens fun line hline => hclean line (List.mem_cons_of_mem _ hline)
      refine ⟨?_, hlistens'⟩
      rw [hrest, hfirst, List.flatMap_cons, List.filterMap_append,
        Turn.filterMap_command?_deeds, List.append_assoc]

theorem of_stopsAt {item : Item} {sent : List Text}
    (h : endpoint.Records listens clean received) (hstate : listens state)
    (hclean : ∀ line, item = .ok line → ∀ command, line.command? = some command →
      clean command)
    (hstop : endpoint.StopsAt marker state item sent error after) :
    received after = received state ++ sent := by
  cases hstop with
  | unreadable => exact (List.append_nil _).symm
  | givenUp spoken failed => exact h.of_fails hstate (hclean _ rfl _ spoken) failed
  | malformed spoken accepted _ =>
      exact (h.of_accepts hstate (hclean _ rfl _ spoken) accepted).1

end Records

/-- Nobody is at the other end: every send comes to a fault and changes nothing. -/
def IsDeaf (endpoint : Endpoint σ) (state : σ) : Prop :=
  ∀ command, ∃ fault notes, endpoint.send state command = ⟨.error fault, notes, state⟩

namespace IsDeaf

variable {endpoint : Endpoint σ} {marker command : Text} {state after : σ} {sends : Nat}
  {error : Error}

theorem not_accepts (h : endpoint.IsDeaf state) :
    ¬ endpoint.Accepts marker command state sends after := by
  obtain ⟨fault, notes, hsend⟩ := h command
  intro haccepts
  cases haccepts with
  | atOnce sent _ => rw [hsend] at sent; cases sent
  | onRetry sent _ _ _ => rw [hsend] at sent; cases sent

theorem eq_of_performs {lines : List Line} {turns : List Turn} (h : endpoint.IsDeaf state)
    (hperforms : endpoint.Performs marker lines state turns after) : after = state := by
  induction hperforms with
  | nil => rfl
  | passOver _ _ ih => exact ih h
  | turn _ accepted _ _ _ => exact absurd accepted h.not_accepts

theorem eq_of_stopsAt {item : Item} {sent : List Text} (h : endpoint.IsDeaf state)
    (hstop : endpoint.StopsAt marker state item sent error after) : after = state := by
  cases hstop with
  | unreadable => rfl
  | @givenUp _ command _ _ _ _ failed =>
      obtain ⟨fault, notes, hsend⟩ := h command
      cases failed with
      | undelivered sent => rw [hsend] at sent; cases sent; rfl
      | retryUndelivered sent _ _ => rw [hsend] at sent; cases sent
      | refused sent _ _ _ => rw [hsend] at sent; cases sent
  | malformed _ accepted _ => exact absurd accepted h.not_accepts

end IsDeaf

end Endpoint

/-! ## Runs -/

namespace Driver

variable {σ τ : Type} (d : Driver σ τ) {source : Source} {state : σ}

/-- **What is received in a run** is what the run sends. -/
theorem received_run {listens : σ → Prop} {clean : Text → Prop} {received : σ → List Text}
    (h : d.endpoint.Records listens clean received) (hstate : listens state)
    (hclean : ∀ line, .ok line ∈ source.items → ∀ command, line.command? = some command →
      clean command) (stored : τ) :
    received (d.run source state stored).endpoint =
      received state ++ (d.run source state stored).chronicle.sends := by
  rcases d.endpoint.performs_or_stops d.marker source.items state with
    ⟨lines, turns, after, hitems, hlines⟩ |
    ⟨lines, item, rest, turns, mid, sent, error, after, hitems, hlines, hstop⟩
  · have hrun := d.run_of_performs hitems hlines stored
    rw [hitems] at hclean
    have hclean := fun line hline => hclean line (List.mem_map_of_mem hline)
    rw [hrun.endpoint_eq, hrun.sends_eq, (h.of_performs hstate hclean hlines).1,
      List.filterMap_append]
    exact congrArg (received state ++ ·) (List.append_nil _).symm
  · have hrun := d.run_of_stopsAt hitems hlines hstop stored
    rw [hitems] at hclean
    have hfirst := fun line hline =>
      hclean line (List.mem_append_left _ (List.mem_map_of_mem hline))
    have hitem : ∀ line, item = .ok line → ∀ command, line.command? = some command →
        clean command := by
      rintro line rfl
      exact hclean line (List.mem_append_right _ List.mem_cons_self)
    obtain ⟨hreceived, hlistens⟩ := h.of_performs hstate hfirst hlines
    rw [hrun.endpoint_eq, hrun.sends_eq, h.of_stopsAt hlistens hitem hstop, hreceived,
      List.filterMap_append, filterMap_command?_sends, List.append_assoc]

/-- **Nothing changes in a run at an endpoint with nobody at the other end.** -/
theorem endpoint_run_of_isDeaf (h : d.endpoint.IsDeaf state) (source : Source) (stored : τ) :
    (d.run source state stored).endpoint = state := by
  rcases d.endpoint.performs_or_stops d.marker source.items state with
    ⟨lines, turns, after, hitems, hlines⟩ |
    ⟨lines, item, rest, turns, mid, sent, error, after, hitems, hlines, hstop⟩
  · rw [(d.run_of_performs hitems hlines stored).endpoint_eq, h.eq_of_performs hlines]
  · obtain rfl := h.eq_of_performs hlines
    rw [(d.run_of_stopsAt hitems hlines hstop stored).endpoint_eq, h.eq_of_stopsAt hstop]

end Driver

end RadarProfile
