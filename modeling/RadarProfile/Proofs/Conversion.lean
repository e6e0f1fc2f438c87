import RadarProfile.Command.Parameters

set_option autoImplicit false

/-! # Converted tokens

The parameters of a command are those of its tokens, one after the other
(`parametersFrom_append`). A token with a rule is the fault of the command or gives one parameter
(`parameters_of_rule`), and all parameters come of such tokens
(`exists_rule_of_mem_parametersFrom`). What a rule converts to is an integer of 64 bits or a
double that is a number (`isDerivable_of_convert?`). -/

namespace RadarProfile

namespace Command

theorem parametersFrom_append (keyword : Text) (index : Nat) (before after : List Text) :
    parametersFrom keyword index (before ++ after) = (do
      let front ← parametersFrom keyword index before
      let back ← parametersFrom keyword (index + before.length) after
      pure (front ++ back)) := by
  induction before generalizing index with
  | nil =>
      show parametersFrom keyword index after =
        (parametersFrom keyword index after >>= fun back => pure back)
      rw [bind_pure]
  | cons token rest ih =>
      have hindex : index + (token :: rest).length = index + 1 + rest.length := by
        rw [List.length_cons]
        omega
      rw [List.cons_append, parametersFrom, parametersFrom, ih, hindex]
      cases Schema.rule? keyword index with
      | none => rfl
      | some rule =>
          dsimp only
          cases rule.transform.convert? token with
          | none => rfl
          | some value =>
              cases parametersFrom keyword (index + 1) rest with
              | error fault => rfl
              | ok front =>
                  cases parametersFrom keyword (index + 1 + rest.length) after with
                  | error fault => rfl
                  | ok back => rfl

/-- A token that a rule reads, between other tokens: it is the fault, or it gives one
parameter. A fault before it comes first. -/
theorem parameters_of_rule {keyword : Text} {before : List Text} {rule : Rule}
    (hrule : Schema.rule? keyword (before.length + 1) = some rule) (token : Text)
    (after : List Text) :
    (⟨keyword, before ++ token :: after⟩ : Command).parameters = (do
      let front ← parametersFrom keyword 1 before
      match rule.transform.convert? token with
      | none => .error ⟨keyword, before.length + 1, token, rule.transform.expected⟩
      | some value => (parametersFrom keyword (before.length + 2) after).map fun back =>
          front ++ ⟨rule.parameter, value⟩ :: back) := by
  have hindex : 1 + before.length = before.length + 1 := Nat.add_comm _ _
  rw [parameters, parametersFrom_append, hindex, parametersFrom, hrule]
  dsimp only
  cases parametersFrom keyword 1 before with
  | error fault => rfl
  | ok front =>
      cases rule.transform.convert? token with
      | none => rfl
      | some value =>
          dsimp only
          cases parametersFrom keyword (before.length + 2) after with
          | error fault => rfl
          | ok back => rfl

/-- A parameter of a command is named by a rule of the schema, and its value is what the rule
makes of a token. -/
theorem exists_rule_of_mem_parametersFrom {keyword : Text} {index : Nat} {tokens : List Text}
    {parameters : List Parameter}
    (h : parametersFrom keyword index tokens = .ok parameters) {parameter : Parameter}
    (hmem : parameter ∈ parameters) :
    ∃ rule ∈ Schema.rules, rule.parameter = parameter.name ∧
      ∃ token, rule.transform.convert? token = some parameter.value := by
  induction tokens generalizing index parameters with
  | nil =>
      cases h
      exact absurd hmem List.not_mem_nil
  | cons token rest ih =>
      rw [parametersFrom] at h
      cases hrule : Schema.rule? keyword index with
      | none =>
          rw [hrule] at h
          exact ih h hmem
      | some rule =>
          rw [hrule] at h
          cases hvalue : rule.transform.convert? token with
          | none => simp only [hvalue] at h; cases h
          | some value =>
              cases hrest : parametersFrom keyword (index + 1) rest with
              | error fault => simp only [hvalue, hrest] at h; cases h
              | ok others =>
                  simp only [hvalue, hrest] at h
                  cases h
                  rcases List.mem_cons.mp hmem with rfl | hmem
                  · exact ⟨rule, List.mem_of_find?_eq_some hrule, rfl, token, hvalue⟩
                  · exact ih hrest hmem

end Command

/-! ## What tokens are converted to -/

/-- The values that tokens are converted to: integers of 64 bits and doubles that are
numbers. -/
def Value.IsDerivable : Value → Prop
  | int z => Integer.least ≤ z ∧ z ≤ Integer.greatest
  | float x => x.isFinite = true

instance : DecidablePred Value.IsDerivable
  | .int z => inferInstanceAs (Decidable (Integer.least ≤ z ∧ z ≤ Integer.greatest))
  | .float x => inferInstanceAs (Decidable (x.isFinite = true))

def Value.transform : Value → Transform
  | int _ => .int
  | float _ => .float

theorem Integer.ofText?_bounds {token : Text} {z : Int} (h : ofText? token = some z) :
    least ≤ z ∧ z ≤ greatest := by
  unfold ofText? at h
  cases hliteral : ofLiteral? token with
  | none => rw [hliteral] at h; cases h
  | some literal =>
      rw [hliteral] at h
      by_cases hbounds : least ≤ literal ∧ literal ≤ greatest
      · dsimp only at h
        rw [if_pos hbounds] at h
        cases h
        exact hbounds
      · dsimp only at h
        rw [if_neg hbounds] at h
        cases h

theorem Binary64.isFinite_of_finite? {negative : Bool} {rank : Nat} {x : Binary64}
    (h : finite? negative rank = some x) : x.isFinite = true := by
  unfold finite? at h
  by_cases hrank : rank < finiteRanks
  · have hexponent : rank / 4503599627370496 < 2047 := by
      unfold finiteRanks at hrank
      omega
    rw [if_pos hrank] at h
    cases h
    show decide (rank / 4503599627370496 % 2048 < 2047) = true
    rw [decide_eq_true_eq]
    omega
  · rw [if_neg hrank] at h
    cases h

theorem Binary64.isFinite_of_ofText? {token : Text} {x : Binary64}
    (h : ofText? token = some x) : x.isFinite = true := by
  unfold ofText? at h
  cases hdecimal : Decimal.ofText? token with
  | none => rw [hdecimal] at h; cases h
  | some d =>
      rw [hdecimal] at h
      exact isFinite_of_finite? h

theorem popcount_le (mask : Int) (first last : Nat) : popcount mask first last ≤ 64 :=
  Nat.le_trans List.countP_le_length (Nat.le_of_eq List.length_range)

/-- **Every converted token is an integer of 64 bits or a double that is a number.** -/
theorem Value.isDerivable_of_convert? {transform : Transform} {token : Text} {v : Value}
    (h : transform.convert? token = some v) : v.IsDerivable := by
  cases transform with
  | int =>
      obtain ⟨z, hz, rfl⟩ := Option.map_eq_some_iff.mp h
      exact Integer.ofText?_bounds hz
  | float =>
      obtain ⟨x, hx, rfl⟩ := Option.map_eq_some_iff.mp h
      exact Binary64.isFinite_of_ofText? hx
  | popcount first last =>
      obtain ⟨mask, -, rfl⟩ := Option.map_eq_some_iff.mp h
      have hcount := popcount_le mask first last
      unfold IsDerivable Integer.least Integer.greatest
      omega

end RadarProfile
