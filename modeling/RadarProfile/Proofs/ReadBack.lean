import RadarProfile.Proofs.Conversion
import RadarProfile.Proofs.Writing

set_option autoImplicit false

/-! # Values read back

Both texts of a value, the logged one and the published one, are numbers in JSON that are
read as the value (`exists_number_of_mem_texts`). So a field of the right kind converts
either to the value again, every bit of it (`texts_read_back`). -/

namespace RadarProfile

/-! ## Values -/

theorem exists_number_ofInt (z : Int) : ∃ n : JsonNumber, Text.ofInt z = n.toText := by
  have hplain : Text.ofNat z.natAbs = ['0'] ∨ (Text.ofNat z.natAbs).head? ≠ some '0' := by
    rcases Nat.eq_zero_or_pos z.natAbs with hzero | hpos
    · rw [hzero]
      exact Or.inl rfl
    · exact Or.inr (Text.head?_ofNat_ne hpos)
  refine ⟨⟨decide (z < 0), Text.ofNat z.natAbs, [], none, Text.isNumeral_ofNat _, hplain,
    fun c hc => absurd hc List.not_mem_nil⟩, ?_⟩
  have hsize : ∀ whole : Text, whole ++ (JsonNumber.pointed [] ++ JsonNumber.scaled none) =
      whole := List.append_nil
  rw [Text.ofInt, JsonNumber.toText, JsonNumber.size, hsize]
  by_cases h : z < 0
  · rw [if_pos h, if_pos (decide_eq_true h)]
  · rw [if_neg h, if_neg (by simpa using h)]

namespace Value

/-- **Both texts of a value are numbers in JSON**, and are read as the value. -/
theorem exists_number_of_mem_texts {v : Value} (hv : v.IsDerivable) {text : Text}
    (htext : text ∈ [v.logText, v.jsonText]) :
    ∃ n : JsonNumber, text = n.toText ∧ v.transform.convert? text = some v := by
  have htext : text = v.logText ∨ text = v.jsonText := by simpa using htext
  cases v with
  | int z =>
      have hofInt : text = Text.ofInt z := htext.elim id id
      obtain ⟨n, hn⟩ := exists_number_ofInt z
      refine ⟨n, hofInt.trans hn, ?_⟩
      show (Integer.ofText? text).map Value.int = _
      rw [hofInt, Integer.ofText?_ofInt hv]
      rfl
  | float x =>
      have hwrite : ∃ layout : Layout, layout.exponentPlus ∈ [[], ['+']] ∧
          text = layout.write x := by
        rcases htext with htext | htext
        · exact ⟨Layout.logged, by decide, htext⟩
        · exact ⟨Layout.published, by decide, htext⟩
      obtain ⟨layout, hplus, hwrite⟩ := hwrite
      obtain ⟨n, hn, hread⟩ := Layout.exists_number_write hplus hv
      refine ⟨n, hwrite.trans hn, ?_⟩
      show (Binary64.ofText? text).map Value.float = _
      rw [hwrite, hn, hread]
      rfl

/-- A token that is read as a value gives the value where its rule reads such values. The
other tokens of the command may be refused, and give what they give on their own. -/
theorem parameters_of_convert? {v : Value} {text : Text} {keyword : Text}
    (before after : List Text) {rule : Rule}
    (htext : v.transform.convert? text = some v)
    (hrule : Schema.rule? keyword (before.length + 1) = some rule)
    (htransform : rule.transform = v.transform) :
    (⟨keyword, before ++ text :: after⟩ : Command).parameters = (do
      let front ← Command.parametersFrom keyword 1 before
      let back ← Command.parametersFrom keyword (before.length + 2) after
      pure (front ++ ⟨rule.parameter, v⟩ :: back)) := by
  rw [Command.parameters_of_rule hrule, htransform, htext]
  cases Command.parametersFrom keyword (before.length + 2) after with
  | error fault => rfl
  | ok back => rfl

/-- **The values of parameters are all integers of 64 bits and all finite doubles.** -/
theorem isDerivable_iff (v : Value) :
    v.IsDerivable ↔ ∃ (c : Command) (parameters : List Parameter),
      c.parameters = .ok parameters ∧ v ∈ parameters.map Parameter.value := by
  constructor
  · intro hv
    obtain ⟨n, -, hread⟩ := exists_number_of_mem_texts hv (List.mem_cons_self ..)
    have hfield : ∃ keyword rule, Schema.rule? keyword 1 = some rule ∧
        rule.transform = v.transform := by
      cases v with
      | int z => exact ⟨"frameCfg".toList, _, rfl, rfl⟩
      | float x => exact ⟨"compRangeBiasAndRxChanPhase".toList, _, rfl, rfl⟩
    obtain ⟨keyword, rule, hrule, htransform⟩ := hfield
    refine ⟨⟨keyword, [v.logText]⟩, [⟨rule.parameter, v⟩], ?_, List.mem_cons_self ..⟩
    exact parameters_of_convert? [] [] hread hrule htransform
  · rintro ⟨c, parameters, hparameters, hmem⟩
    obtain ⟨parameter, hparameter, rfl⟩ := List.mem_map.mp hmem
    obtain ⟨rule, -, -, token, hvalue⟩ :=
      Command.exists_rule_of_mem_parametersFrom hparameters hparameter
    exact isDerivable_of_convert? hvalue

/-- **Values read back.** A value is a parameter's exactly if it is an integer of 64 bits or a
finite double. Then the published text is a number in JSON; the logged and the published text
are each one token, both denote the value, bit for bit, and in a command a rule of the value's
kind makes the value of either, whatever the other tokens are. The two texts of a double
differ in where exponents begin, below `10^(-4)` and below `10^(-5)`, and in the plus sign of
an exponent that is not negative. -/
theorem texts_read_back (v : Value) :
    (v.IsDerivable ↔ ∃ (c : Command) (parameters : List Parameter),
      c.parameters = .ok parameters ∧ v ∈ parameters.map Parameter.value) ∧
    (v.IsDerivable →
      ((∃ n : JsonNumber, v.jsonText = n.toText) ∧ v.jsonText ≠ "null".toList) ∧
      (∀ text ∈ [v.logText, v.jsonText],
        words text = [text] ∧ v.transform.convert? text = some v ∧
        ∀ (keyword : Text) (before after : List Text) (rule : Rule),
          Schema.rule? keyword (before.length + 1) = some rule →
          rule.transform = v.transform →
          (⟨keyword, before ++ text :: after⟩ : Command).parameters = (do
            let front ← Command.parametersFrom keyword 1 before
            let back ← Command.parametersFrom keyword (before.length + 2) after
            pure (front ++ ⟨rule.parameter, v⟩ :: back))) ∧
      (∀ x, v = .float x →
        ('e' ∈ v.logText ↔ x.rank ≠ 0 ∧
          ¬ (Shortest.powerRank (-4) ≤ x.rank ∧ x.rank < Shortest.powerRank 16)) ∧
        ('e' ∈ v.jsonText ↔ x.rank ≠ 0 ∧
          ¬ (Shortest.powerRank (-5) ≤ x.rank ∧ x.rank < Shortest.powerRank 16)) ∧
        '+' ∉ v.logText ∧ ('+' ∈ v.jsonText ↔ Shortest.powerRank 16 ≤ x.rank))) := by
  have hjson : v.jsonText ∈ [v.logText, v.jsonText] :=
    List.mem_cons_of_mem _ (List.mem_cons_self ..)
  refine ⟨isDerivable_iff v, fun hv => ⟨?_, ?_, ?_⟩⟩
  · obtain ⟨n, hn, -⟩ := exists_number_of_mem_texts hv hjson
    refine ⟨⟨n, hn⟩, ?_⟩
    rw [hn]
    exact n.toText_ne_null
  · intro text htext
    obtain ⟨n, hn, hread⟩ := exists_number_of_mem_texts hv htext
    refine ⟨?_, hread, fun keyword before after rule hrule htransform =>
      parameters_of_convert? before after hread hrule htransform⟩
    rw [hn]
    exact n.words_toText
  · -- the layouts differ in the least size that is plain and in the sign of the exponent
    rintro x rfl
    obtain ⟨hlogged, hlogged_plus⟩ := Layout.mem_write Layout.settled_logged hv
    obtain ⟨hpublished, hpublished_plus⟩ := Layout.mem_write Layout.settled_published hv
    refine ⟨hlogged.trans not_or, hpublished.trans not_or, ?_, ?_⟩
    · intro h
      exact absurd (hlogged_plus.mp h).1 List.not_mem_nil
    · exact hpublished_plus.trans (and_iff_right (List.mem_cons_self ..))

/-- The texts of `-10^16` have an exponent each, and each reads back. -/
theorem texts_read_back_scientific :
    (float ⟨true, 1076, 496400372629504⟩).logText = "-1e16".toList ∧
    (float ⟨true, 1076, 496400372629504⟩).jsonText = "-1e+16".toList ∧
    ∀ text ∈ ["-1e16".toList, "-1e+16".toList],
      (⟨"compRangeBiasAndRxChanPhase".toList, [text, "1".toList]⟩ : Command).parameters =
        .ok [⟨"rangeBias".toList, float ⟨true, 1076, 496400372629504⟩⟩] := by
  have hlog : (float ⟨true, 1076, 496400372629504⟩).logText = "-1e16".toList := by
    decide +kernel
  have hjson : (float ⟨true, 1076, 496400372629504⟩).jsonText = "-1e+16".toList := by
    decide +kernel
  refine ⟨hlog, hjson, ?_⟩
  rw [← hlog, ← hjson]
  intro text htext
  have hback :=
    ((texts_read_back (float ⟨true, 1076, 496400372629504⟩)).2 (by decide)).2.1 text htext
  exact hback.2.2 "compRangeBiasAndRxChanPhase".toList [] ["1".toList] _ rfl rfl

-- two shortest forms are equally near `2^(-25)`; each layout takes its own, and both read back
example : (float ⟨false, 998, 0⟩).logText = "2.9802322387695313e-8".toList ∧
    (float ⟨false, 998, 0⟩).jsonText = "2.9802322387695312e-8".toList := by decide +kernel

end Value

end RadarProfile
