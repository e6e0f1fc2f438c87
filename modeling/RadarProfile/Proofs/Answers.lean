import RadarProfile.Endpoint.Scripted
import RadarProfile.Proofs.Aftermath

set_option autoImplicit false

/-! # What the answers to a command come to

A command is sent again as long as the answers lack the success marker and attempts are in
reserve. So the answers to all its sends say everything: those before the last one lack the
marker, the last one decides (`deliver_concludes`). For a dispatch that is one answer or
two (`dispatch_by_answers`). -/

namespace RadarProfile

/-- What comes back for one send: a response, or the fault for which there is none. -/
abbrev Answer := Except DeliveryFault Text

/-- The answer is a response, and the marker is no contiguous part of it. -/
def Answer.Lacks (marker : Text) (answer : Answer) : Prop :=
  ∃ response, answer = .ok response ∧ ¬ marker <:+: response

/-- What a dispatch whose last answer is this one results in, after so many sends. -/
def Answer.conclusion (marker command : Text) (sends : Nat) : Answer → Except Error Outcome
  | .error fault => .error (.delivery command fault)
  | .ok response => .ok ⟨sends, Text.occursIn marker response, response⟩

theorem Answer.not_lacks_error {marker : Text} {fault : DeliveryFault} :
    ¬ Answer.Lacks marker (.error fault) := by
  rintro ⟨response, h, -⟩
  cases h

theorem Answer.lacks_ok_iff {marker response : Text} :
    Answer.Lacks marker (.ok response) ↔ Text.occursIn marker response = false := by
  rw [← Bool.not_eq_true, Text.occursIn_iff]
  constructor
  · rintro ⟨_, ⟨⟩, h⟩
    exact h
  · intro h
    exact ⟨response, rfl, h⟩

namespace Endpoint

variable {σ : Type}

def answers (endpoint : Endpoint σ) (command : Text) : Nat → σ → List Answer
  | 0, _ => []
  | sends + 1, state =>
    (endpoint.send state command).response ::
      endpoint.answers command sends (endpoint.send state command).state

def stateAfter (endpoint : Endpoint σ) (command : Text) : Nat → σ → σ
  | 0, state => state
  | sends + 1, state => endpoint.stateAfter command sends (endpoint.send state command).state

variable (endpoint : Endpoint σ) (marker command : Text)

/-! ## All attempts -/

/-- `d` is what remains of sends that begin with the `attempt`-th one and have `spare` more
in reserve: the answers before the last one lack the marker, and the last one is not followed
by another send, for it does not lack the marker or the reserve is used up. -/
structure Concludes (attempt spare : Nat) (state : σ) (d : Dispatched σ)
    (earlier : List Answer) (last : Answer) : Prop where
  answers_eq : endpoint.answers command (earlier.length + 1) state = earlier ++ [last]
  lacks_of_mem : ∀ answer ∈ earlier, answer.Lacks marker
  length_le : earlier.length ≤ spare
  length_eq_of_lacks : last.Lacks marker → earlier.length = spare
  result_eq : d.result = last.conclusion marker command (attempt + earlier.length)
  state_eq : d.state = endpoint.stateAfter command (earlier.length + 1) state
  deeds_eq : d.chronicle.deeds = List.replicate (earlier.length + 1) (.send command)

variable {endpoint marker command}

theorem concludes_single {attempt spare : Nat} {state after : σ} {answer : Answer}
    {notes : List Note} {d : Dispatched σ} (closing : List Note)
    (sent : endpoint.send state command = ⟨answer, notes, after⟩)
    (hlast : answer.Lacks marker → spare = 0)
    (hresult : d.result = answer.conclusion marker command attempt) (hstate : d.state = after)
    (hchronicle : d.chronicle = opening command attempt notes ++ closing.map .noted) :
    endpoint.Concludes marker command attempt spare state d [] answer where
  answers_eq := by rw [List.length_nil, answers, answers, sent]; rfl
  lacks_of_mem := fun _ h => absurd h List.not_mem_nil
  length_le := Nat.zero_le _
  length_eq_of_lacks := fun h => (hlast h).symm
  result_eq := hresult
  state_eq := by rw [List.length_nil, stateAfter, stateAfter, sent, hstate]
  deeds_eq := by
    rw [hchronicle, Chronicle.deeds_append, deeds_opening, Chronicle.deeds_map_noted]
    rfl

theorem concludes_undelivered (attempt spare : Nat) {state after : σ} {fault : DeliveryFault}
    {notes : List Note} (sent : endpoint.send state command = ⟨.error fault, notes, after⟩) :
    endpoint.Concludes marker command attempt spare state
      (endpoint.deliver marker command attempt spare state) [] (.error fault) := by
  rw [deliver_undelivered attempt spare sent]
  exact concludes_single [] sent (fun h => absurd h Answer.not_lacks_error) rfl rfl
    (List.append_nil _).symm

theorem concludes_marked (attempt spare : Nat) {state after : σ} {response : Text}
    {notes : List Note} (sent : endpoint.send state command = ⟨.ok response, notes, after⟩)
    (marked : Text.occursIn marker response = true) :
    endpoint.Concludes marker command attempt spare state
      (endpoint.deliver marker command attempt spare state) [] (.ok response) := by
  have hlast : ¬ Answer.Lacks marker (.ok response) := by
    rw [Answer.lacks_ok_iff, marked]
    exact Bool.noConfusion
  rw [deliver_marked attempt spare sent marked]
  refine concludes_single [.accepted command] sent (fun h => absurd h hlast) ?_ rfl rfl
  rw [Answer.conclusion, marked]

theorem concludes_exhausted (attempt : Nat) {state after : σ} {response : Text}
    {notes : List Note} (sent : endpoint.send state command = ⟨.ok response, notes, after⟩)
    (unmarked : Text.occursIn marker response = false) :
    endpoint.Concludes marker command attempt 0 state
      (endpoint.deliver marker command attempt 0 state) [] (.ok response) := by
  rw [deliver_unmarked_last attempt sent unmarked]
  refine concludes_single [.refused command marker response true] sent (fun _ => rfl) ?_ rfl rfl
  rw [Answer.conclusion, unmarked]

/-- With an attempt in reserve, a response without the marker stands in front of the answers
to the sends after it. -/
theorem concludes_cons {attempt spare : Nat} {state between : σ} {response : Text}
    {notes : List Note} {earlier : List Answer} {last : Answer}
    (sent : endpoint.send state command = ⟨.ok response, notes, between⟩)
    (unmarked : Text.occursIn marker response = false)
    (h : endpoint.Concludes marker command (attempt + 1) spare between
      (endpoint.deliver marker command (attempt + 1) spare between) earlier last) :
    endpoint.Concludes marker command attempt (spare + 1) state
      (endpoint.deliver marker command attempt (spare + 1) state) (.ok response :: earlier)
      last where
  answers_eq := by rw [List.length_cons, answers, sent, h.answers_eq, List.cons_append]
  lacks_of_mem := by
    intro answer hmem
    rcases List.mem_cons.mp hmem with rfl | hmem
    · exact Answer.lacks_ok_iff.mpr unmarked
    · exact h.lacks_of_mem answer hmem
  length_le := Nat.succ_le_succ h.length_le
  length_eq_of_lacks := fun hlast => congrArg (· + 1) (h.length_eq_of_lacks hlast)
  result_eq := by
    rw [deliver_unmarked_spare attempt spare sent unmarked, List.length_cons,
      ← Nat.add_assoc, Nat.add_right_comm]
    exact h.result_eq
  state_eq := by
    rw [deliver_unmarked_spare attempt spare sent unmarked, List.length_cons, stateAfter, sent]
    exact h.state_eq
  deeds_eq := by
    rw [deliver_unmarked_spare attempt spare sent unmarked, Chronicle.deeds_append,
      Chronicle.deeds_noted, deeds_opening, h.deeds_eq]
    rfl

variable (endpoint marker command)

/-- **The answers decide** what becomes of a command, however many attempts there are. -/
theorem deliver_concludes (attempt spare : Nat) (state : σ) :
    ∃ earlier last, endpoint.Concludes marker command attempt spare state
      (endpoint.deliver marker command attempt spare state) earlier last := by
  -- along the reserve: a send is the last one, or it takes one attempt from the reserve
  induction spare generalizing attempt state with
  | zero =>
      rcases hsent : endpoint.send state command with ⟨fault | response, notes, after⟩
      · exact ⟨[], _, concludes_undelivered attempt 0 hsent⟩
      cases hmarked : Text.occursIn marker response with
      | true => exact ⟨[], _, concludes_marked attempt 0 hsent hmarked⟩
      | false => exact ⟨[], _, concludes_exhausted attempt hsent hmarked⟩
  | succ spare ih =>
      rcases hsent : endpoint.send state command with ⟨fault | response, notes, between⟩
      · exact ⟨[], _, concludes_undelivered attempt (spare + 1) hsent⟩
      cases hmarked : Text.occursIn marker response with
      | true => exact ⟨[], _, concludes_marked attempt (spare + 1) hsent hmarked⟩
      | false =>
          obtain ⟨earlier, last, h⟩ := ih (attempt + 1) between
          exact ⟨_, last, concludes_cons hsent hmarked h⟩

variable {endpoint marker command}

/-- A fault among the answers is the last one. -/
theorem Concludes.last_eq_of_mem {attempt spare : Nat} {state : σ} {d : Dispatched σ}
    {earlier : List Answer} {last : Answer}
    (h : endpoint.Concludes marker command attempt spare state d earlier last)
    {fault : DeliveryFault}
    (hmem : .error fault ∈ endpoint.answers command (earlier.length + 1) state) :
    last = .error fault := by
  rw [h.answers_eq] at hmem
  rcases List.mem_append.mp hmem with hmem | hmem
  · exact absurd (h.lacks_of_mem _ hmem) Answer.not_lacks_error
  · exact (List.mem_singleton.mp hmem).symm

theorem Concludes.forall_lacks_iff {attempt spare : Nat} {state : σ} {d : Dispatched σ}
    {earlier : List Answer} {last : Answer}
    (h : endpoint.Concludes marker command attempt spare state d earlier last) :
    (∀ answer ∈ endpoint.answers command (earlier.length + 1) state, answer.Lacks marker) ↔
      last.Lacks marker := by
  rw [h.answers_eq]
  constructor
  · intro hall
    exact hall last (List.mem_append_right _ (List.mem_singleton_self last))
  · intro hlast answer hmem
    rcases List.mem_append.mp hmem with hmem | hmem
    · exact h.lacks_of_mem answer hmem
    · rw [List.mem_singleton.mp hmem]
      exact hlast

/-- With an attempt in reserve, the command is sent again exactly if the first answer lacks
the marker. -/
theorem Concludes.ne_nil_iff {attempt spare : Nat} {state : σ} {d : Dispatched σ}
    {earlier : List Answer} {last : Answer}
    (h : endpoint.Concludes marker command attempt (spare + 1) state d earlier last) :
    earlier ≠ [] ↔ Answer.Lacks marker (endpoint.send state command).response := by
  have hanswers := h.answers_eq
  rw [answers] at hanswers
  cases earlier with
  | nil =>
      have hfirst : (endpoint.send state command).response = last := (List.cons.inj hanswers).1
      constructor
      · intro hne
        exact absurd rfl hne
      · intro hlacks
        rw [hfirst] at hlacks
        exact absurd (h.length_eq_of_lacks hlacks).symm (Nat.succ_ne_zero spare)
  | cons answer rest =>
      have hfirst : (endpoint.send state command).response = answer :=
        (List.cons.inj hanswers).1
      rw [hfirst]
      exact iff_of_true (List.cons_ne_nil _ _) (h.lacks_of_mem answer List.mem_cons_self)

variable (endpoint marker command)

/-- **A dispatch by its answers.** A command is sent once or twice, it alone is sent, and
nothing is written. It is sent a second time exactly if the first answer is a response that
lacks the marker. The dispatch fails exactly if an answer is a fault; then that is the last
answer, and the error is that fault. Otherwise the outcome has the number of sends and the
last response, and it is an acceptance exactly if that response holds the marker, a refusal
exactly if there were two responses and both lack it. -/
theorem dispatch_by_answers (state : σ) :
    ∃ sends, (sends = 1 ∨ sends = 2) ∧
      (endpoint.dispatch marker command state).chronicle.deeds =
        List.replicate sends (.send command) ∧
      (endpoint.dispatch marker command state).state =
        endpoint.stateAfter command sends state ∧
      (sends = 2 ↔ Answer.Lacks marker (endpoint.send state command).response) ∧
      (∀ error, (endpoint.dispatch marker command state).result = .error error ↔
        ∃ fault, .error fault ∈ endpoint.answers command sends state ∧
          error = .delivery command fault) ∧
      (∀ fault, .error fault ∈ endpoint.answers command sends state →
        (endpoint.answers command sends state).getLast? = some (.error fault)) ∧
      ∀ outcome, (endpoint.dispatch marker command state).result = .ok outcome →
        outcome.attempts = sends ∧
        (endpoint.answers command sends state).getLast? = some (.ok outcome.response) ∧
        (outcome.accepted = true ↔ marker <:+: outcome.response) ∧
        (outcome.accepted = false ↔
          sends = 2 ∧ ∀ answer ∈ endpoint.answers command sends state, answer.Lacks marker) := by
  obtain ⟨earlier, last, h⟩ := endpoint.deliver_concludes marker command 1 1 state
  have hdispatch : endpoint.dispatch marker command state =
      endpoint.deliver marker command 1 1 state := rfl
  have hlast : (endpoint.answers command (earlier.length + 1) state).getLast? = some last := by
    rw [h.answers_eq, List.getLast?_concat]
  have hsends : earlier.length + 1 = 2 ↔ earlier ≠ [] := by
    rw [← List.length_pos_iff]
    have := h.length_le
    omega
  rw [hdispatch]
  refine ⟨earlier.length + 1, ?_, h.deeds_eq, h.state_eq, hsends.trans h.ne_nil_iff, ?_, ?_, ?_⟩
  · have := h.length_le
    omega
  · intro error
    rw [h.result_eq]
    constructor
    · intro herror
      cases last with
      | error fault =>
          cases herror
          exact ⟨fault, List.mem_of_getLast? hlast, rfl⟩
      | ok response => cases herror
    · rintro ⟨fault, hmem, rfl⟩
      rw [h.last_eq_of_mem hmem]
      rfl
  · intro fault hmem
    rw [hlast, h.last_eq_of_mem hmem]
  · intro outcome houtcome
    rw [h.result_eq] at houtcome
    cases last with
    | error fault => cases houtcome
    | ok response =>
        cases houtcome
        refine ⟨Nat.add_comm 1 _, hlast, Text.occursIn_iff marker response, ?_⟩
        rw [h.forall_lacks_iff, Answer.lacks_ok_iff]
        -- a response without the marker is only the last one if the reserve is used up
        refine ⟨fun hrefused => ⟨?_, hrefused⟩, fun hboth => hboth.2⟩
        rw [h.length_eq_of_lacks (Answer.lacks_ok_iff.mpr hrefused)]

/-- A first response without the marker and a second one with it: two sends, and the outcome
is an acceptance with the second response. -/
theorem dispatch_by_answers_retried :
    let marker : Text := "Done".toList
    let command : Text := "sensorStart".toList
    let replies : List Scripted.Reply := [.ok "Error -1".toList, .ok "Done".toList]
    let outcome : Outcome := ⟨2, true, "Done".toList⟩
    ((Scripted.endpoint true).dispatch marker command replies).result = .ok outcome ∧
      ((Scripted.endpoint true).answers command outcome.attempts replies).getLast? =
        some (.ok outcome.response) ∧
      marker <:+: outcome.response := by
  intro marker command replies outcome
  obtain ⟨sends, -, -, -, -, -, -, hok⟩ :=
    (Scripted.endpoint true).dispatch_by_answers marker command replies
  have hresult : ((Scripted.endpoint true).dispatch marker command replies).result =
      .ok outcome := by decide +kernel
  obtain ⟨rfl, hlast, haccepted, -⟩ := hok outcome hresult
  exact ⟨hresult, hlast, haccepted.mp rfl⟩

end Endpoint

end RadarProfile
