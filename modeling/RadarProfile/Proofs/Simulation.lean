import RadarProfile.Proofs.Aftermath

set_option autoImplicit false

/-! # Endpoints that answer alike

A run looks at an answer for two things: whether it is a fault or a response, and whether
the response holds the marker; the text of a response matters only where it lacks the marker.
`Endpoint.Simulates` relates the states of two endpoints that answer alike in this sense. In
related states both accept a command or both give it up for the same error, so they carry out
the same lines in the same turns, and stop at the same item. The two runs cannot be told apart
by result or deeds (`run_same_of_simulates`). -/

namespace RadarProfile

namespace Endpoint

variable {σ σ' : Type}

/-- Two answers that make no difference to a run: they are the same, or both are responses
with the marker. -/
inductive Alike (marker : Text) :
    Except DeliveryFault Text → Except DeliveryFault Text → Prop where
  | same {answer : Except DeliveryFault Text} : Alike marker answer answer
  | marked {response response' : Text} (first : Text.occursIn marker response = true)
      (second : Text.occursIn marker response' = true) :
      Alike marker (.ok response) (.ok response')

namespace Alike

variable {marker : Text} {answer : Except DeliveryFault Text}

theorem eq_of_fault {fault : DeliveryFault} (h : Alike marker (.error fault) answer) :
    answer = .error fault := by
  cases h with
  | same => rfl

theorem eq_of_unmarked {response : Text} (h : Alike marker (.ok response) answer)
    (hunmarked : Text.occursIn marker response = false) : answer = .ok response := by
  cases h with
  | same => rfl
  | marked first second =>
      rw [hunmarked] at first
      cases first

theorem exists_of_marked {response : Text} (h : Alike marker (.ok response) answer)
    (hmarked : Text.occursIn marker response = true) :
    ∃ response', answer = .ok response' ∧ Text.occursIn marker response' = true := by
  cases h with
  | same => exact ⟨response, rfl, hmarked⟩
  | marked first second => exact ⟨_, rfl, second⟩

end Alike

/-- In related states the two endpoints answer alike, and go on to related states. -/
structure Simulates (endpoint : Endpoint σ) (endpoint' : Endpoint σ') (marker : Text)
    (related : σ → σ' → Prop) : Prop where
  alike : ∀ {state : σ} {state' : σ'} (command : Text), related state state' →
    Alike marker (endpoint.send state command).response
      (endpoint'.send state' command).response
  related_send : ∀ {state : σ} {state' : σ'} (command : Text), related state state' →
    related (endpoint.send state command).state (endpoint'.send state' command).state

namespace Simulates

variable {endpoint : Endpoint σ} {endpoint' : Endpoint σ'} {marker command : Text}
  {related : σ → σ' → Prop} {state after : σ} {state' : σ'} {sends : Nat}

theorem exists_send (h : endpoint.Simulates endpoint' marker related)
    (hstate : related state state') {answer : Except DeliveryFault Text} {notes : List Note}
    (hsent : endpoint.send state command = ⟨answer, notes, after⟩) :
    ∃ answer' notes' after', endpoint'.send state' command = ⟨answer', notes', after'⟩ ∧
      Alike marker answer answer' ∧ related after after' := by
  have halike := h.alike command hstate
  have hrelated := h.related_send command hstate
  rw [hsent] at halike hrelated
  exact ⟨_, _, _, rfl, halike, hrelated⟩

/-- **What the one endpoint accepts, the other accepts** after as many sends. -/
theorem accepts (h : endpoint.Simulates endpoint' marker related)
    (hstate : related state state')
    (haccepts : endpoint.Accepts marker command state sends after) :
    ∃ after', endpoint'.Accepts marker command state' sends after' ∧ related after after' := by
  cases haccepts with
  | atOnce sent marked =>
      obtain ⟨answer', notes', after', hsent, halike, hafter⟩ := h.exists_send hstate sent
      obtain ⟨response', rfl, hmarked⟩ := halike.exists_of_marked marked
      exact ⟨after', .atOnce hsent hmarked, hafter⟩
  | onRetry sent unmarked resent marked =>
      obtain ⟨_, _, between', hsent, halike, hbetween⟩ := h.exists_send hstate sent
      obtain ⟨_, _, after', hresent, halike', hafter⟩ := h.exists_send hbetween resent
      obtain rfl := halike.eq_of_unmarked unmarked
      obtain ⟨response', rfl, hmarked⟩ := halike'.exists_of_marked marked
      exact ⟨after', .onRetry hsent unmarked hresent hmarked, hafter⟩

/-- **What the one endpoint gives up, the other gives up** for the same error. -/
theorem fails {error : Error} (h : endpoint.Simulates endpoint' marker related)
    (hstate : related state state')
    (hfails : endpoint.Fails marker command state sends error after) :
    ∃ after', endpoint'.Fails marker command state' sends error after' ∧
      related after after' := by
  cases hfails with
  | undelivered sent =>
      obtain ⟨_, _, after', hsent, halike, hafter⟩ := h.exists_send hstate sent
      obtain rfl := halike.eq_of_fault
      exact ⟨after', .undelivered hsent, hafter⟩
  | retryUndelivered sent unmarked resent =>
      obtain ⟨_, _, between', hsent, halike, hbetween⟩ := h.exists_send hstate sent
      obtain ⟨_, _, after', hresent, halike', hafter⟩ := h.exists_send hbetween resent
      obtain rfl := halike.eq_of_unmarked unmarked
      obtain rfl := halike'.eq_of_fault
      exact ⟨after', .retryUndelivered hsent unmarked hresent, hafter⟩
  | refused sent unmarked resent unmarked' =>
      obtain ⟨_, _, between', hsent, halike, hbetween⟩ := h.exists_send hstate sent
      obtain ⟨_, _, after', hresent, halike', hafter⟩ := h.exists_send hbetween resent
      obtain rfl := halike.eq_of_unmarked unmarked
      obtain rfl := halike'.eq_of_unmarked unmarked'
      exact ⟨after', .refused hsent unmarked hresent unmarked', hafter⟩

theorem performs {lines : List Line} {turns : List Turn}
    (h : endpoint.Simulates endpoint' marker related) (hstate : related state state')
    (hperforms : endpoint.Performs marker lines state turns after) :
    ∃ after', endpoint'.Performs marker lines state' turns after' ∧ related after after' := by
  induction hperforms generalizing state' with
  | nil => exact ⟨state', .nil, hstate⟩
  | passOver silent _ ih =>
      obtain ⟨after', hrest, hafter⟩ := ih hstate
      exact ⟨after', .passOver silent hrest, hafter⟩
  | turn spoken accepted converted _ ih =>
      obtain ⟨between', haccepted, hbetween⟩ := h.accepts hstate accepted
      obtain ⟨after', hrest, hafter⟩ := ih hbetween
      exact ⟨after', .turn spoken haccepted converted hrest, hafter⟩

/-- An item that ends a run with the one endpoint ends it with the other. -/
theorem stopsAt {item : Item} {sent : List Text} {error : Error}
    (h : endpoint.Simulates endpoint' marker related) (hstate : related state state')
    (hstop : endpoint.StopsAt marker state item sent error after) :
    ∃ after', endpoint'.StopsAt marker state' item sent error after' ∧
      related after after' := by
  cases hstop with
  | unreadable => exact ⟨state', .unreadable, hstate⟩
  | givenUp spoken failed =>
      obtain ⟨after', hfailed, hafter⟩ := h.fails hstate failed
      exact ⟨after', .givenUp spoken hfailed, hafter⟩
  | malformed spoken accepted refused =>
      obtain ⟨after', haccepted, hafter⟩ := h.accepts hstate accepted
      exact ⟨after', .malformed spoken haccepted refused, hafter⟩

end Simulates

end Endpoint

/-- **Endpoints that answer alike see the same run**, whatever the stores are: the two runs
come to the same result by the same deeds, and leave the endpoints in related states. -/
theorem Driver.run_same_of_simulates {σ σ' τ τ' : Type} {endpoint : Endpoint σ}
    {endpoint' : Endpoint σ'} {marker : Text} {related : σ → σ' → Prop} {state : σ}
    {state' : σ'} (h : endpoint.Simulates endpoint' marker related)
    (hstate : related state state') (store : Store τ) (store' : Store τ') (source : Source)
    (stored : τ) (stored' : τ') :
    let run := (Driver.mk endpoint store marker).run source state stored
    let run' := (Driver.mk endpoint' store' marker).run source state' stored'
    run.result = run'.result ∧ run.chronicle.deeds = run'.chronicle.deeds ∧
      related run.endpoint run'.endpoint := by
  intro run run'
  rcases endpoint.performs_or_stops marker source.items state with
    ⟨lines, turns, after, hitems, hlines⟩ |
    ⟨lines, item, rest, turns, mid, sent, error, after, hitems, hlines, hstop⟩
  · -- all lines are carried out on both sides
    obtain ⟨after', hlines', hafter⟩ := h.performs hstate hlines
    have hrun := Driver.run_of_performs (Driver.mk endpoint store marker) hitems hlines stored
    have hrun' :=
      Driver.run_of_performs (Driver.mk endpoint' store' marker) hitems hlines' stored'
    refine ⟨hrun.result_eq.trans hrun'.result_eq.symm,
      hrun.deeds_eq.trans hrun'.deeds_eq.symm, ?_⟩
    rw [hrun.endpoint_eq, hrun'.endpoint_eq]
    exact hafter
  · -- the same item ends both runs
    obtain ⟨mid', hlines', hmid⟩ := h.performs hstate hlines
    obtain ⟨after', hstop', hafter⟩ := h.stopsAt hmid hstop
    have hrun :=
      Driver.run_of_stopsAt (Driver.mk endpoint store marker) hitems hlines hstop stored
    have hrun' :=
      Driver.run_of_stopsAt (Driver.mk endpoint' store' marker) hitems hlines' hstop' stored'
    refine ⟨hrun.result_eq.trans hrun'.result_eq.symm,
      hrun.deeds_eq.trans hrun'.deeds_eq.symm, ?_⟩
    rw [hrun.endpoint_eq, hrun'.endpoint_eq]
    exact hafter

end RadarProfile
