import RadarProfile.Proofs.Literals
import RadarProfile.Proofs.Nearest
import RadarProfile.Proofs.Rules

set_option autoImplicit false

/-! # Fields that are read as doubles

A token that a rule reads as a double is converted if it is a decimal literal whose value is
below the overflow, and then to the nearest double with the sign of the token. The value is
the exact one, but for an exponent whose digits go on after they have made the ceiling: those
digits are passed over (`DecimalLiteral.read`). This shows only where the exponent is ten times
the ceiling or more and nearly as many digits stand before it (`toBinary64?_read`), since
otherwise both values are too large or both are rounded to zero. Every other token is the fault
of its command, as it is (`Command.parameters_float_field`). -/

namespace RadarProfile

/-! ## Values of literals -/

/-- A row of digits has a number below the power of ten of its length. -/
theorem Text.numeralValue_lt {digits : Text} (h : ∀ c ∈ digits, c.isDigit = true) :
    numeralValue digits < 10 ^ digits.length := by
  induction digits using List.reverseRecOn with
  | nil => decide
  | append_singleton digits c ih =>
      have hrest := ih fun d hd => h d (List.mem_append_left _ hd)
      have hc : 48 ≤ c.val ∧ c.val ≤ 57 := by simpa [Char.isDigit] using h c (by simp)
      have hlast : c.toNat ≤ 57 := hc.2
      rw [numeralValue_snoc, List.length_append, List.length_singleton, Nat.pow_succ]
      omega

namespace DecimalLiteral

def value (l : DecimalLiteral) : ℚ :=
  Binary64.signFactor l.negative *
    ((Text.numeralValue l.whole + Text.numeralValue l.places / 10 ^ l.places.length) *
      10 ^ l.scale)

theorem value_decimal (l : DecimalLiteral) : l.decimal.value = l.value := by
  have hten : (10 : ℚ) ≠ 0 := by norm_num
  have hpow : (10 : ℚ) ^ l.places.length ≠ 0 := pow_ne_zero _ hten
  unfold Decimal.value decimal value
  dsimp only
  congr 1
  rw [Text.numeralValue_append, zpow_sub₀ hten, zpow_natCast]
  push_cast
  field_simp

end DecimalLiteral

namespace Binary64

theorem ofText?_toText (l : DecimalLiteral) :
    ofText? l.toText = l.read.decimal.toBinary64? := by
  rw [ofText?, l.ofText?_toText]

/-- What a text is converted to is known by the literal that it is, if it is one. -/
theorem ofText?_ne_none_iff (t : Text) :
    ofText? t ≠ none ↔ ∃ l : DecimalLiteral, l.toText = t ∧ |l.read.value| < overflow := by
  constructor
  · intro h
    cases hdecimal : Decimal.ofText? t with
    | none =>
        rw [ofText?, hdecimal] at h
        exact absurd rfl h
    | some d =>
        obtain ⟨l, rfl, -⟩ := DecimalLiteral.ofText?_eq_some_iff.mp hdecimal
        rw [ofText?_toText, Decimal.toBinary64?_ne_none_iff, DecimalLiteral.value_decimal] at h
        exact ⟨l, rfl, h⟩
  · rintro ⟨l, rfl, h⟩
    rw [ofText?_toText, Decimal.toBinary64?_ne_none_iff, DecimalLiteral.value_decimal]
    exact h

end Binary64

/-! ## Exponents beyond the ceiling -/

namespace Decimal

theorem toBinary64?_eq_none_of_isVast {d : Decimal} (h : d.isVast = true) :
    d.toBinary64? = none := by
  rw [toBinary64?_eq, Binary64.finite?,
    if_neg (Nat.not_lt.mpr (finiteRanks_le_exactRank_of_isVast h))]

/-- A coefficient with many more places than digits is rounded to zero. -/
theorem exactRank_eq_zero {d : Decimal} {digits : Nat} (hdigits : d.coefficient < 10 ^ digits)
    (hplaces : d.exponent + digits + 324 ≤ 0) : d.exactRank = 0 := by
  have hunit : 2 * Nat.pow 2 1074 ≤ 10 ^ 324 := by decide +kernel
  have hnum : d.exponent.toNat = 0 := by omega
  obtain ⟨more, hden⟩ : ∃ more, (-d.exponent).toNat = more + digits + 324 :=
    ⟨(-d.exponent - digits - 324).toNat, by omega⟩
  rw [exactRank, Binary64.nearestRank_eq_unitsRank, hnum, hden, Nat.pow_zero, Nat.mul_one]
  apply Binary64.unitsRank_eq_zero
  generalize Nat.pow 2 1074 = unit at hunit ⊢
  generalize 324 = places at hunit ⊢
  have hpositive : 0 < 10 ^ places := Nat.pow_pos (by decide)
  have hless : 10 ^ digits ≤ 10 ^ (more + digits) :=
    Nat.pow_le_pow_right (by decide) (Nat.le_add_left _ _)
  calc 2 * (d.coefficient * unit) = d.coefficient * (2 * unit) := Nat.mul_left_comm _ _ _
    _ ≤ d.coefficient * 10 ^ places := Nat.mul_le_mul_left _ hunit
    _ < 10 ^ (more + digits) * 10 ^ places :=
        Nat.mul_lt_mul_of_pos_right (hdigits.trans_le hless) hpositive
    _ = 10 ^ (more + digits + places) := (Nat.pow_add 10 _ _).symm

/-- Exponents that are far enough from all finite doubles make no difference. -/
theorem toBinary64?_of_extreme (negative : Bool) {coefficient digits : Nat}
    (hdigits : coefficient < 10 ^ digits) {exponent exponent' : Int}
    (h : 400 < exponent ∧ 400 < exponent' ∨
      exponent + digits + 324 ≤ 0 ∧ exponent' + digits + 324 ≤ 0) :
    (⟨negative, coefficient, exponent⟩ : Decimal).toBinary64? =
      (⟨negative, coefficient, exponent'⟩ : Decimal).toBinary64? := by
  by_cases hzero : coefficient = 0
  · have htiny : ∀ exponent : Int, (⟨negative, coefficient, exponent⟩ : Decimal).isTiny = true := by
      intro exponent
      rw [isTiny, hzero]
      rfl
    rw [toBinary64?_eq, toBinary64?_eq, exactRank_of_isTiny (htiny _),
      exactRank_of_isTiny (htiny _)]
  rcases h with ⟨h, h'⟩ | ⟨h, h'⟩
  · have hvast : ∀ exponent : Int, 400 < exponent →
        (⟨negative, coefficient, exponent⟩ : Decimal).isVast = true := by
      intro exponent hexponent
      simp [isVast, hzero, hexponent]
    rw [toBinary64?_eq_none_of_isVast (hvast _ h), toBinary64?_eq_none_of_isVast (hvast _ h')]
  · have hrank : ∀ exponent : Int, exponent + digits + 324 ≤ 0 →
        (⟨negative, coefficient, exponent⟩ : Decimal).exactRank = 0 := fun exponent hexponent =>
      exactRank_eq_zero hdigits hexponent
    rw [toBinary64?_eq, toBinary64?_eq, hrank _ h, hrank _ h']

end Decimal

namespace DecimalLiteral

/-- The exponent has fewer digits than could be passed over: its number is less than ten times
the ceiling. -/
def Moderate (l : DecimalLiteral) : Prop :=
  ∀ e ∈ l.exponent, Text.numeralValue e.digits < 10 * Decimal.exponentCeiling

theorem isDigit_of_mem_digits (l : DecimalLiteral) :
    ∀ c ∈ l.whole ++ l.places, c.isDigit = true := by
  intro c hc
  rcases List.mem_append.mp hc with hc | hc
  · exact l.whole_digits c hc
  · unfold places at hc
    cases hfraction : l.fraction with
    | none => rw [hfraction] at hc; cases hc
    | some places =>
        rw [hfraction] at hc
        exact l.fraction_digits places hfraction c hc

theorem length_digits_le (l : DecimalLiteral) :
    (l.whole ++ l.places).length ≤ l.toText.length := by
  unfold places toText size
  cases l.fraction with
  | none =>
      simp only [Option.getD_none, List.length_append, List.length_nil]
      omega
  | some places =>
      simp only [Option.getD_some, pointed, List.length_append, List.length_cons]
      omega

/-- **Passing over digits of an exponent shows in long tokens only.** -/
theorem toBinary64?_read {l : DecimalLiteral} (h : l.Moderate ∨ l.toText.length < 65000) :
    l.read.decimal.toBinary64? = l.decimal.toBinary64? := by
  by_cases hmoderate : l.Moderate
  · rw [read_eq_self hmoderate]
  have hlength := h.resolve_left hmoderate
  -- both exponents are far beyond what so few digits can make up for
  obtain ⟨e, he, hlarge⟩ : ∃ e ∈ l.exponent,
      10 * Decimal.exponentCeiling ≤ Text.numeralValue e.digits := by
    simpa [Moderate] using hmoderate
  have hexponent : l.exponent = some e := he
  have hscale : l.scale = e.value := by rw [scale, hexponent]; rfl
  have hscale' : l.read.scale = e.read.value := by rw [scale, read, hexponent]; rfl
  have hsize : 65536 ≤ Text.numeralValue e.digits := by
    unfold Decimal.exponentCeiling at hlarge
    omega
  have hsize' : 65536 ≤ Text.numeralValue e.read.digits := Decimal.ceiling_le_readDigits hsize
  have hdigits : Text.numeralValue (l.whole ++ l.places) < 10 ^ (l.whole ++ l.places).length :=
    Text.numeralValue_lt l.isDigit_of_mem_digits
  have hfew : (l.whole ++ l.places).length < 65000 := l.length_digits_le.trans_lt hlength
  rw [List.length_append] at hfew
  refine Decimal.toBinary64?_of_extreme l.negative hdigits ?_
  rw [hscale, hscale', List.length_append]
  show 400 < e.read.value - l.places.length ∧ _ ∨ _
  by_cases hsign : e.sign = ['-']
  · have hvalue : e.value = -(Text.numeralValue e.digits : Int) := if_pos hsign
    have hvalue' : e.read.value = -(Text.numeralValue e.read.digits : Int) := if_pos hsign
    refine Or.inr ?_
    show e.read.value - l.places.length + _ + _ ≤ _ ∧ _
    omega
  · have hvalue : e.value = Text.numeralValue e.digits := if_neg hsign
    have hvalue' : e.read.value = Text.numeralValue e.read.digits := if_neg hsign
    refine Or.inl ?_
    omega

end DecimalLiteral

/-! ## Tokens of a field -/

namespace Command

/-- A token that a rule reads, after tokens that are converted: it is the fault, or it gives
one parameter. -/
theorem parameters_of_token {keyword : Text} {before : List Text} {rule : Rule}
    {front : List Parameter} (hrule : Schema.rule? keyword (before.length + 1) = some rule)
    (hfront : parametersFrom keyword 1 before = .ok front) (token : Text)
    (after : List Text) :
    (⟨keyword, before ++ token :: after⟩ : Command).parameters =
      match rule.transform.convert? token with
      | none => .error ⟨keyword, before.length + 1, token, rule.transform.expected⟩
      | some value => (parametersFrom keyword (before.length + 2) after).map fun back =>
          front ++ ⟨rule.parameter, value⟩ :: back := by
  rw [parameters_of_rule hrule, hfront]
  rfl

/-- **A field that is read as a double is read exactly.** Its token is converted if it is a
decimal literal with a value below half a step above the greatest finite double, and then to
the nearest double, a tie going to the even significand, with the sign of the token; any other
token is the fault of the command, as it is. The value is that of the literal if the number of
its exponent is less than ten times the ceiling; a larger exponent ends with the digit that
makes the ceiling, which changes nothing for tokens of fewer than 65000 characters. -/
theorem parameters_float_field {keyword : Text} {before : List Text} {rule : Rule}
    {front : List Parameter} (hrule : Schema.rule? keyword (before.length + 1) = some rule)
    (hfloat : rule.transform = .float)
    (hfront : parametersFrom keyword 1 before = .ok front) (token : Text)
    (after : List Text) :
    ∃ converted : Option Binary64,
      (⟨keyword, before ++ token :: after⟩ : Command).parameters =
        (match converted with
        | none => .error ⟨keyword, before.length + 1, token, .float⟩
        | some x => (parametersFrom keyword (before.length + 2) after).map fun back =>
            front ++ ⟨rule.parameter, .float x⟩ :: back) ∧
      (converted ≠ none ↔ ∃ l : DecimalLiteral, l.toText = token ∧
        |l.read.value| < 2 ^ 1024 - 2 ^ 970) ∧
      (∀ l : DecimalLiteral, l.toText = token → ∀ x, converted = some x ↔
        x.IsRoundingOf l.negative l.read.value) ∧
      (∀ l : DecimalLiteral, l.toText = token → l.Moderate ∨ token.length < 65000 →
        (converted ≠ none ↔ |l.value| < 2 ^ 1024 - 2 ^ 970) ∧
          ∀ x, converted = some x ↔ x.IsRoundingOf l.negative l.value) ∧
      (converted ≠ none → (∃ c ∈ token, c.isDigit = true) ∧
        ∀ c ∈ token, c.isDigit = true ∨ c ∈ ['+', '-', '.', 'e', 'E']) := by
  refine ⟨Binary64.ofText? token, ?_, Binary64.ofText?_ne_none_iff token, ?_, ?_, ?_⟩
  · rw [parameters_of_token hrule hfront, hfloat]
    show (match (Binary64.ofText? token).map Value.float with | none => _ | some value => _) = _
    cases Binary64.ofText? token with
    | none => rfl
    | some x => rfl
  · rintro l rfl x
    rw [Binary64.ofText?_toText, Decimal.toBinary64?_eq_some_iff, DecimalLiteral.value_decimal]
    rfl
  · rintro l rfl hexact
    rw [Binary64.ofText?_toText, DecimalLiteral.toBinary64?_read hexact,
      Decimal.toBinary64?_ne_none_iff, DecimalLiteral.value_decimal]
    refine ⟨Iff.rfl, fun x => ?_⟩
    rw [Decimal.toBinary64?_eq_some_iff, DecimalLiteral.value_decimal]
    rfl
  · intro h
    obtain ⟨l, rfl, -⟩ := (Binary64.ofText?_ne_none_iff token).mp h
    refine ⟨l.exists_isDigit, fun c hc => ?_⟩
    have hchar := DecimalLiteral.isNumberChar_of_mem_toText hc
    rw [JsonNumber.isNumberChar, Bool.or_eq_true] at hchar
    simpa [or_comm, or_left_comm] using hchar

/-- A negative number far below the least double is the negative zero. -/
theorem parameters_float_field_of_underflow :
    let c : Command := ⟨"compRangeBiasAndRxChanPhase".toList, ["-1e-400".toList]⟩
    let l : DecimalLiteral := ⟨['-'], ['1'], none,
      some ⟨'e', ['-'], "400".toList, by decide, by decide, by decide⟩, by decide,
      List.forall_mem_singleton.mpr rfl, by simp, Or.inl (List.cons_ne_nil _ _)⟩
    let zero : Binary64 := ⟨true, 0, 0⟩
    c.parameters = .ok [⟨"rangeBias".toList, .float zero⟩] ∧ l.toText = "-1e-400".toList ∧
      zero.IsRoundingOf true l.value := by
  intro c l zero
  obtain ⟨converted, hparameters, -, -, hexact, -⟩ := parameters_float_field
    (show Schema.rule? "compRangeBiasAndRxChanPhase".toList (([] : List Text).length + 1) =
      some (.named "compRangeBiasAndRxChanPhase" 1 "rangeBias" .float) by decide +kernel)
    rfl (show parametersFrom _ 1 [] = .ok [] from rfl) "-1e-400".toList []
  have hc : c.parameters = .ok [⟨"rangeBias".toList, .float zero⟩] := by decide +kernel
  have hl : l.toText = "-1e-400".toList := by decide
  have hconverted : converted = some zero := by
    cases converted with
    | none => cases hparameters.symm.trans hc
    | some x =>
        have hx := hparameters.symm.trans hc
        cases hx
        rfl
  exact ⟨hc, hl, ((hexact l hl (Or.inr (by decide))).2 zero).mp hconverted⟩

end Command

/-! ## An exponent that is cut -/

def JsonExponent.overlong : JsonExponent :=
  ⟨'e', [], "655360".toList, by decide, by decide, by decide⟩

/-- A one after a point and a row of zeros, with an exponent of ten times the ceiling. -/
def DecimalLiteral.overlong (zeros : Nat) : DecimalLiteral where
  sign := []
  whole := ['0']
  fraction := some (List.replicate zeros '0' ++ ['1'])
  exponent := some .overlong
  sign_mem := by decide
  whole_digits := List.forall_mem_singleton.mpr rfl
  fraction_digits := by
    rintro _ ⟨⟩ c hc
    rcases List.mem_append.mp hc with hc | hc
    · exact Text.isDigit_of_mem_replicate_zero hc
    · cases List.mem_singleton.mp hc
      rfl
  nonempty := Or.inl (List.cons_ne_nil _ _)

namespace DecimalLiteral

variable (zeros : Nat)

theorem toText_overlong : (overlong zeros).toText =
    "0.".toList ++ List.replicate zeros '0' ++ "1e655360".toList := by
  show '0' :: '.' :: (List.replicate zeros '0' ++ ['1'] ++ "e655360".toList) = _
  rw [List.append_assoc]
  rfl

theorem coefficient_overlong :
    Text.numeralValue ((overlong zeros).whole ++ (overlong zeros).places) = 1 := by
  show Text.numeralValue (List.replicate (zeros + 1) '0' ++ ['1']) = 1
  rw [Text.numeralValue_snoc, Text.numeralValue_replicate_zero]
  decide

theorem length_places_overlong : (overlong zeros).places.length = zeros + 1 := by
  show (List.replicate zeros '0' ++ ['1']).length = zeros + 1
  rw [List.length_append, List.length_replicate, List.length_singleton]

theorem decimal_overlong :
    (overlong zeros).decimal = ⟨false, 1, 655360 - (zeros + 1 : Nat)⟩ := by
  have hscale : (overlong zeros).scale = 655360 := by
    show JsonExponent.overlong.value = 655360
    decide +kernel
  rw [decimal, coefficient_overlong, length_places_overlong, hscale]
  rfl

theorem decimal_read_overlong :
    (overlong zeros).read.decimal = ⟨false, 1, 65536 - (zeros + 1 : Nat)⟩ := by
  have hscale : (overlong zeros).read.scale = 65536 := by
    show JsonExponent.overlong.read.value = 65536
    decide +kernel
  have hcoefficient := coefficient_overlong zeros
  have hlength := length_places_overlong zeros
  rw [decimal, hscale]
  show (⟨false, Text.numeralValue ((overlong zeros).whole ++ (overlong zeros).places),
    65536 - ((overlong zeros).places.length : Int)⟩ : Decimal) = _
  rw [hcoefficient, hlength]

end DecimalLiteral

theorem DecimalLiteral.overflow_le_value_overlong :
    2 ^ 1024 - 2 ^ 970 ≤ |(overlong 65535).value| := by
  have hdecimal : (overlong 65535).decimal = ⟨false, 1, 589824⟩ := decimal_overlong 65535
  have hvalue : (⟨false, 1, 589824⟩ : Decimal).value = 10 ^ (589824 : Int) := by
    rw [Decimal.value, Binary64.signFactor, if_neg Bool.false_ne_true, Nat.cast_one, one_mul,
      one_mul]
  have hten : (1 : ℚ) ≤ 10 := by norm_num
  rw [← value_decimal, hdecimal, hvalue]
  have hsize : 2 ^ 1024 ≤ 10 ^ 342 := by decide +kernel
  calc (2 : ℚ) ^ 1024 - 2 ^ 970 ≤ 2 ^ 1024 := sub_le_self _ (by positivity)
    _ ≤ 10 ^ 342 := by exact_mod_cast hsize
    _ = 10 ^ (342 : Int) := (zpow_natCast 10 342).symm
    _ ≤ 10 ^ (589824 : Int) := zpow_le_zpow_right₀ hten (by decide)
    _ ≤ |10 ^ (589824 : Int)| := le_abs_self _

/-- **A number beyond every double is converted to one** where its exponent is cut. -/
theorem Command.parameters_of_overlong :
    (DecimalLiteral.overlong 65535).toText =
        "0.".toList ++ List.replicate 65535 '0' ++ "1e655360".toList ∧
      2 ^ 1024 - 2 ^ 970 ≤ |(DecimalLiteral.overlong 65535).value| ∧
      (⟨"compRangeBiasAndRxChanPhase".toList, [(DecimalLiteral.overlong 65535).toText]⟩ :
        Command).parameters = .ok [⟨"rangeBias".toList, .float ⟨false, 1023, 0⟩⟩] := by
  have hrule : Schema.rule? "compRangeBiasAndRxChanPhase".toList
      (([] : List Text).length + 1) =
        some (.named "compRangeBiasAndRxChanPhase" 1 "rangeBias" .float) := by decide +kernel
  have hparameters : ∀ token,
      Transform.float.convert? token = some (.float ⟨false, 1023, 0⟩) →
        (⟨"compRangeBiasAndRxChanPhase".toList, [token]⟩ : Command).parameters =
          .ok [⟨"rangeBias".toList, .float ⟨false, 1023, 0⟩⟩] := by
    intro token h
    refine (parameters_of_token hrule rfl token []).trans ?_
    show (match Transform.float.convert? token with | none => _ | some value => _) = _
    rw [h]
    rfl
  refine ⟨DecimalLiteral.toText_overlong 65535, DecimalLiteral.overflow_le_value_overlong,
    hparameters _ ?_⟩
  have hone : (⟨false, 1, 0⟩ : Decimal).toBinary64? = some ⟨false, 1023, 0⟩ := by
    decide +kernel
  have hread : (DecimalLiteral.overlong 65535).read.decimal = ⟨false, 1, 0⟩ :=
    DecimalLiteral.decimal_read_overlong 65535
  rw [Transform.convert?, Binary64.ofText?_toText, hread, hone]
  rfl

end RadarProfile
