import RadarProfile.Endpoint.DryRun
import RadarProfile.Proofs.Chronicle

set_option autoImplicit false

/-! # How a dispatch goes

A dispatch is described from outside, by what the endpoint answers: `Accepts` lists the two
ways in which a command is accepted, at once or on the retry, and `Fails` the three ways in
which it is not. Exactly one of these five happens, and each fixes the result of the
dispatch, the state of the endpoint after it, and what the chronicle says. -/

namespace RadarProfile

/-! ## The success marker -/

namespace Text

theorem occursIn_iff (part whole : Text) :
    occursIn part whole = true ↔ part <:+: whole := by
  induction whole with
  | nil => simp [occursIn]
  | cons c rest ih =>
      rw [occursIn, Bool.or_eq_true, List.isPrefixOf_iff_prefix, ih, List.infix_cons_iff]

theorem occursIn_append_left (before part : Text) :
    occursIn part (before ++ part) = true :=
  (occursIn_iff part _).mpr (List.suffix_append before part).isInfix

end Text

/-! ## Outcomes by the answers of the endpoint -/

namespace Endpoint

variable {σ : Type}

/-- `endpoint.Accepts marker command state sends after`: the command is accepted on the
`sends`-th send, which leaves the endpoint in `after`. -/
inductive Accepts (endpoint : Endpoint σ) (marker command : Text) (state : σ) :
    Nat → σ → Prop where
  /-- The first response holds the marker. -/
  | atOnce {response : Text} {notes : List Note} {after : σ}
      (sent : endpoint.send state command = ⟨.ok response, notes, after⟩)
      (marked : Text.occursIn marker response = true) :
      Accepts endpoint marker command state 1 after
  /-- The first response lacks the marker, the second one holds it. -/
  | onRetry {first second : Text} {notes notes' : List Note} {between after : σ}
      (sent : endpoint.send state command = ⟨.ok first, notes, between⟩)
      (unmarked : Text.occursIn marker first = false)
      (resent : endpoint.send between command = ⟨.ok second, notes', after⟩)
      (marked : Text.occursIn marker second = true) :
      Accepts endpoint marker command state 2 after

/-- `endpoint.Fails marker command state sends error after`: after `sends` sends, which
leave the endpoint in `after`, the command is given up for `error`. -/
inductive Fails (endpoint : Endpoint σ) (marker command : Text) (state : σ) :
    Nat → Error → σ → Prop where
  /-- The first send is not delivered. -/
  | undelivered {fault : DeliveryFault} {notes : List Note} {after : σ}
      (sent : endpoint.send state command = ⟨.error fault, notes, after⟩) :
      Fails endpoint marker command state 1 (.delivery command fault) after
  /-- The first response lacks the marker, and the retry is not delivered. -/
  | retryUndelivered {first : Text} {fault : DeliveryFault} {notes notes' : List Note}
      {between after : σ}
      (sent : endpoint.send state command = ⟨.ok first, notes, between⟩)
      (unmarked : Text.occursIn marker first = false)
      (resent : endpoint.send between command = ⟨.error fault, notes', after⟩) :
      Fails endpoint marker command state 2 (.delivery command fault) after
  /-- Both responses lack the marker. -/
  | refused {first second : Text} {notes notes' : List Note} {between after : σ}
      (sent : endpoint.send state command = ⟨.ok first, notes, between⟩)
      (unmarked : Text.occursIn marker first = false)
      (resent : endpoint.send between command = ⟨.ok second, notes', after⟩)
      (unmarked' : Text.occursIn marker second = false) :
      Fails endpoint marker command state 2 (.acceptance command second 2) after

theorem accepts_or_fails (endpoint : Endpoint σ) (marker command : Text) (state : σ) :
    (∃ sends after, endpoint.Accepts marker command state sends after) ∨
      ∃ sends error after, endpoint.Fails marker command state sends error after := by
  rcases hsent : endpoint.send state command with ⟨fault | first, notes, between⟩
  · exact Or.inr ⟨1, _, between, .undelivered hsent⟩
  cases hfirst : Text.occursIn marker first with
  | true => exact Or.inl ⟨1, between, .atOnce hsent hfirst⟩
  | false =>
      rcases hresent : endpoint.send between command with ⟨fault | second, notes', after⟩
      · exact Or.inr ⟨2, _, after, .retryUndelivered hsent hfirst hresent⟩
      cases hsecond : Text.occursIn marker second with
      | true => exact Or.inl ⟨2, after, .onRetry hsent hfirst hresent hsecond⟩
      | false => exact Or.inr ⟨2, _, after, .refused hsent hfirst hresent hsecond⟩

theorem Accepts.sends_eq {endpoint : Endpoint σ} {marker command : Text} {state after : σ}
    {sends : Nat} (h : endpoint.Accepts marker command state sends after) :
    sends = 1 ∨ sends = 2 := by
  cases h with
  | atOnce _ _ => exact Or.inl rfl
  | onRetry _ _ _ _ => exact Or.inr rfl

theorem Fails.sends_eq {endpoint : Endpoint σ} {marker command : Text} {state after : σ}
    {sends : Nat} {error : Error}
    (h : endpoint.Fails marker command state sends error after) : sends = 1 ∨ sends = 2 := by
  cases h with
  | undelivered _ => exact Or.inl rfl
  | retryUndelivered _ _ _ => exact Or.inr rfl
  | refused _ _ _ _ => exact Or.inr rfl

/-! ## What one attempt adds to the chronicle -/

theorem deeds_opening (command : Text) (attempt : Nat) (notes : List Note) :
    (opening command attempt notes).deeds = [.send command] := by
  rw [opening, Chronicle.deeds_noted, Chronicle.deeds_sent, Chronicle.deeds_map_noted]

theorem beginsQuietly_opening (command : Text) (attempt : Nat) (notes : List Note) :
    (opening command attempt notes).BeginsQuietly :=
  Chronicle.beginsQuietly_noted _ _

theorem dispatches_opening_first (command : Text) (notes : List Note) :
    (opening command 1 notes).dispatches = [command] := by
  rw [opening, Chronicle.dispatches, Chronicle.dispatches_eq_nil (Chronicle.sends_map_noted _)]

theorem dispatches_opening_retry {attempt : Nat} (h : attempt ≠ 1) (command : Text)
    (notes : List Note) : (opening command attempt notes).dispatches = [] := by
  -- neither the announcement nor the send after it begins a dispatch
  rw [opening, Chronicle.dispatches, Chronicle.dispatches,
    Chronicle.dispatches_eq_nil (Chronicle.sends_map_noted _)]
  · intro announced sent rest hnote _
    cases hnote
  · intro announced sent rest hnote _
    cases hnote
    exact h rfl

end Endpoint

/-! ## What a dispatch leaves behind -/

/-- The error that a dispatch of a command makes for a run, if it makes one: a fault in
delivery, or a last response that is not an acceptance. -/
def Dispatched.error? {σ : Type} (command : Text) (d : Dispatched σ) : Option Error :=
  match d.result with
  | .error error => some error
  | .ok outcome =>
    if outcome.accepted then none
    else some (.acceptance command outcome.response outcome.attempts)

structure Dispatched.Shows {σ : Type} (d : Dispatched σ) (command : Text) (sends : Nat)
    (error? : Option Error) (after : σ) : Prop where
  error?_eq : d.error? command = error?
  state_eq : d.state = after
  deeds_eq : d.chronicle.deeds = List.replicate sends (.send command)
  dispatches_eq : d.chronicle.dispatches = [command]
  quiet : d.chronicle.BeginsQuietly

namespace Endpoint

variable {σ : Type} {endpoint : Endpoint σ} {marker command : Text} {state after : σ}
  {sends : Nat} {error : Error}

/-! ### One attempt -/

theorem deliver_undelivered {fault : DeliveryFault} {notes : List Note}
    (attempt spare : Nat)
    (sent : endpoint.send state command = ⟨.error fault, notes, after⟩) :
    endpoint.deliver marker command attempt spare state =
      ⟨.error (.delivery command fault), after, opening command attempt notes⟩ := by
  rw [deliver.eq_def]
  simp only [sent]

theorem deliver_marked {response : Text} {notes : List Note} (attempt spare : Nat)
    (sent : endpoint.send state command = ⟨.ok response, notes, after⟩)
    (marked : Text.occursIn marker response = true) :
    endpoint.deliver marker command attempt spare state =
      ⟨.ok ⟨attempt, true, response⟩, after,
        opening command attempt notes ++ [.noted (.accepted command)]⟩ := by
  rw [deliver.eq_def]
  simp only [sent, marked, if_true]

theorem deliver_unmarked_last {response : Text} {notes : List Note} (attempt : Nat)
    (sent : endpoint.send state command = ⟨.ok response, notes, after⟩)
    (unmarked : Text.occursIn marker response = false) :
    endpoint.deliver marker command attempt 0 state =
      ⟨.ok ⟨attempt, false, response⟩, after,
        opening command attempt notes ++
          [.noted (.refused command marker response true)]⟩ := by
  rw [deliver.eq_def]
  simp only [sent, unmarked, Bool.false_eq_true, if_false]

theorem deliver_unmarked_spare {response : Text} {notes : List Note} {between : σ}
    (attempt spare : Nat)
    (sent : endpoint.send state command = ⟨.ok response, notes, between⟩)
    (unmarked : Text.occursIn marker response = false) :
    endpoint.deliver marker command attempt (spare + 1) state =
      ⟨(endpoint.deliver marker command (attempt + 1) spare between).result,
        (endpoint.deliver marker command (attempt + 1) spare between).state,
        opening command attempt notes ++ .noted (.refused command marker response false) ::
          (endpoint.deliver marker command (attempt + 1) spare between).chronicle⟩ := by
  rw [deliver.eq_def]
  simp only [sent, unmarked, Bool.false_eq_true, if_false]

/-! ### All attempts -/

/-- A dispatch that ends with its first attempt sends the command once. -/
theorem shows_of_single {d : Dispatched σ} {error? : Option Error}
    (notes closing : List Note)
    (herror : d.error? command = error?) (hstate : d.state = after)
    (hchronicle : d.chronicle = opening command 1 notes ++ closing.map .noted) :
    d.Shows command 1 error? after where
  error?_eq := herror
  state_eq := hstate
  deeds_eq := by
    rw [hchronicle, Chronicle.deeds_append, deeds_opening, Chronicle.deeds_map_noted]
    rfl
  dispatches_eq := by
    rw [hchronicle, Chronicle.dispatches_append _ (Chronicle.beginsQuietly_map_noted closing),
      dispatches_opening_first, Chronicle.dispatches_eq_nil (Chronicle.sends_map_noted _)]
    rfl
  quiet := by
    rw [hchronicle]
    exact (beginsQuietly_opening command 1 notes).append
      (Chronicle.beginsQuietly_map_noted closing)

/-- A dispatch that ends with its second attempt sends the command twice. -/
theorem shows_of_retry {d : Dispatched σ} {error? : Option Error} (refusal : Note)
    (notes notes' closing : List Note)
    (herror : d.error? command = error?) (hstate : d.state = after)
    (hchronicle : d.chronicle = opening command 1 notes ++ .noted refusal ::
      (opening command 2 notes' ++ closing.map .noted)) :
    d.Shows command 2 error? after where
  error?_eq := herror
  state_eq := hstate
  deeds_eq := by
    rw [hchronicle, Chronicle.deeds_append, Chronicle.deeds_noted, Chronicle.deeds_append,
      deeds_opening, deeds_opening, Chronicle.deeds_map_noted]
    rfl
  dispatches_eq := by
    have hclosing := Chronicle.beginsQuietly_map_noted closing
    have hretry := (beginsQuietly_opening command 2 notes').append hclosing
    rw [hchronicle, Chronicle.dispatches_append _ (Chronicle.beginsQuietly_noted refusal _),
      Chronicle.dispatches_noted refusal hretry, Chronicle.dispatches_append _ hclosing,
      dispatches_opening_first, dispatches_opening_retry (by decide),
      Chronicle.dispatches_eq_nil (Chronicle.sends_map_noted _)]
    rfl
  quiet := by
    rw [hchronicle]
    exact (beginsQuietly_opening command 1 notes).append (Chronicle.beginsQuietly_noted _ _)

/-- **An accepted command** makes no error, and nothing is done but to send it. -/
theorem dispatch_of_accepts (h : endpoint.Accepts marker command state sends after) :
    (endpoint.dispatch marker command state).Shows command sends none after := by
  -- one attempt is spare when the first one begins
  rw [dispatch, show attemptLimit - 1 = 1 from rfl]
  cases h with
  | @atOnce _ notes _ sent marked =>
      rw [deliver_marked 1 1 sent marked]
      exact shows_of_single notes [.accepted command] rfl rfl rfl
  | @onRetry _ _ notes notes' _ _ sent unmarked resent marked =>
      rw [deliver_unmarked_spare 1 0 sent unmarked, deliver_marked 2 0 resent marked]
      exact shows_of_retry _ notes notes' [.accepted command] rfl rfl rfl

/-- **A command that is given up** makes its error, and nothing is done but to send it. -/
theorem dispatch_of_fails (h : endpoint.Fails marker command state sends error after) :
    (endpoint.dispatch marker command state).Shows command sends (some error) after := by
  rw [dispatch, show attemptLimit - 1 = 1 from rfl]
  cases h with
  | @undelivered _ notes _ sent =>
      rw [deliver_undelivered 1 1 sent]
      exact shows_of_single notes [] rfl rfl (List.append_nil _).symm
  | @retryUndelivered first _ notes notes' _ _ sent unmarked resent =>
      rw [deliver_unmarked_spare 1 0 sent unmarked, deliver_undelivered 2 0 resent]
      refine shows_of_retry (.refused command marker first false) notes notes' [] rfl rfl ?_
      rw [List.map_nil, List.append_nil]
  | @refused _ second notes notes' _ _ sent unmarked resent unmarked' =>
      rw [deliver_unmarked_spare 1 0 sent unmarked, deliver_unmarked_last 2 resent unmarked']
      exact shows_of_retry _ notes notes' [.refused command marker second true] rfl rfl rfl

end Endpoint

end RadarProfile
