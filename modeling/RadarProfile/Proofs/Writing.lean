import RadarProfile.Proofs.ShortestDigits

set_option autoImplicit false

/-! # Written sizes

A layout writes a point of a decimal grid as a number in JSON of the same value, in each of
its four forms, so the text of a finite double is read as that double
(`exists_number_write`). Where a layout begins to write exponents shows in the size of the
double (`mem_write`). -/

namespace RadarProfile

/-! ## The value of a point -/

/-- A decimal number with the digits of a point, or with zeros added to them, has the rank of
the point. -/
theorem Decimal.exactRank_of_point {d : Decimal} {digits grid : Nat} (zeros : Nat)
    (hcoefficient : d.coefficient = digits * 10 ^ zeros)
    (hexponent : d.exponent + zeros = (grid : Int) - 1074) :
    d.exactRank = Binary64.nearestRank (digits * Nat.pow 10 grid) (Nat.pow 10 1074) := by
  have hcross : ∀ places : Nat, d.exponent + zeros = (grid : Int) - places →
      d.coefficient * 10 ^ d.exponent.toNat * Nat.pow 10 places =
        digits * Nat.pow 10 grid * 10 ^ (-d.exponent).toNat := by
    intro places hplaces
    have hsum : zeros + d.exponent.toNat + places = grid + (-d.exponent).toNat := by omega
    calc d.coefficient * 10 ^ d.exponent.toNat * 10 ^ places
        = digits * 10 ^ (zeros + d.exponent.toNat + places) := by rw [hcoefficient]; ring
      _ = digits * 10 ^ grid * 10 ^ (-d.exponent).toNat := by rw [hsum]; ring
  exact Binary64.nearestRank_congr (Nat.pow_pos (by decide)) (Shortest.ten_pow_pos 1074)
    (hcross 1074 hexponent)

namespace Layout

/-! ## Writing a point -/

/-- The places and the sign of the exponent, each on its own. -/
theorem scientific_eq (layout : Layout) (digits : Text) (position : Int) :
    layout.scientific digits position = digits.take 1 ++ (JsonNumber.pointed (digits.drop 1) ++
      'e' :: ((if 0 ≤ position - 1 then layout.exponentPlus else []) ++
        Text.ofInt (position - 1))) := by
  unfold scientific
  cases digits.drop 1 with
  | nil => simp only [JsonNumber.pointed, List.append_assoc, List.cons_append, List.nil_append]
  | cons c rest =>
      simp only [JsonNumber.pointed, List.append_assoc, List.cons_append]

/-- The number in JSON has this text after its sign, and the value of the point. -/
structure Writes (n : JsonNumber) (negative : Bool) (size : Text) (p : Shortest.Point) : Prop where
  negative_eq : n.negative = negative
  size_eq : n.size = size
  moderate : n.Moderate
  exactRank_eq : n.decimal.exactRank =
    Binary64.nearestRank (p.digits * Nat.pow 10 p.grid) (Nat.pow 10 1074)

theorem pointed_of_ne_nil {places : Text} (h : places ≠ []) :
    JsonNumber.pointed places = '.' :: places := by
  cases places with
  | nil => exact absurd rfl h
  | cons c rest => rfl

theorem isNumeral_take {t : Text} {k : Nat} (h : Text.isNumeral t = true) (hk : 0 < k) :
    Text.isNumeral (t.take k) = true := by
  obtain ⟨hnonempty, hdigits⟩ := Text.isNumeral_iff.mp h
  refine Text.isNumeral_iff.mpr ⟨?_, fun c hc => hdigits c (List.mem_of_mem_take hc)⟩
  rw [ne_eq, List.take_eq_nil_iff]
  rintro (hzero | hnil)
  · omega
  · exact hnonempty hnil

section

variable (negative : Bool) {p : Shortest.Point}

theorem exists_number_behind {zeros : Nat}
    (hposition : (p.grid : Int) - 1074 + (Text.ofNat p.digits).length = -zeros) :
    ∃ n, Writes n negative
      ("0.".toList ++ List.replicate zeros '0' ++ Text.ofNat p.digits) p := by
  have hnonempty : Text.ofNat p.digits ≠ [] := Nat.toDigits_ne_nil
  have hplaces : ∀ c ∈ List.replicate zeros '0' ++ Text.ofNat p.digits, c.isDigit = true := by
    intro c hc
    rcases List.mem_append.mp hc with hc | hc
    · exact Text.isDigit_of_mem_replicate_zero hc
    · exact Text.isDigit_of_mem_ofNat hc
  refine ⟨⟨negative, ['0'], List.replicate zeros '0' ++ Text.ofNat p.digits, none, rfl,
    Or.inl rfl, hplaces⟩, rfl, ?_, (fun _ he => nomatch he), ?_⟩
  · rw [JsonNumber.size, pointed_of_ne_nil (by simp [hnonempty])]
    simp [JsonNumber.scaled]
  · apply Decimal.exactRank_of_point 0
    · show Text.numeralValue (['0'] ++ (List.replicate zeros '0' ++ Text.ofNat p.digits)) = _
      rw [Text.numeralValue_append, Text.numeralValue_append, Text.numeralValue_ofNat,
        Text.numeralValue_replicate_zero]
      show _ * 0 + (_ * 0 + p.digits) = _
      omega
    · show (0 : Int) - (List.replicate zeros '0' ++ Text.ofNat p.digits).length + (0 : Nat) = _
      rw [List.length_append, List.length_replicate]
      omega

variable (hpos : 0 < p.digits)

include hpos

theorem exists_number_before {zeros : Nat} (hgrid : (p.grid : Int) - 1074 = zeros) :
    ∃ n, Writes n negative
      (Text.ofNat p.digits ++ List.replicate zeros '0' ++ ".0".toList) p := by
  have hnonempty : Text.ofNat p.digits ≠ [] := Nat.toDigits_ne_nil
  have hwhole : Text.isNumeral (Text.ofNat p.digits ++ List.replicate zeros '0') = true := by
    refine Text.isNumeral_iff.mpr ⟨by simp [hnonempty], ?_⟩
    intro c hc
    rcases List.mem_append.mp hc with hc | hc
    · exact Text.isDigit_of_mem_ofNat hc
    · exact Text.isDigit_of_mem_replicate_zero hc
  have hplain : (Text.ofNat p.digits ++ List.replicate zeros '0').head? ≠ some '0' := by
    rw [List.head?_append_of_ne_nil _ hnonempty]
    exact Text.head?_ofNat_ne hpos
  refine ⟨⟨negative, Text.ofNat p.digits ++ List.replicate zeros '0', ['0'], none, hwhole,
    Or.inr hplain, fun _ => Text.isDigit_of_mem_replicate_zero (n := 1)⟩, rfl, rfl,
    (fun _ he => nomatch he), ?_⟩
  apply Decimal.exactRank_of_point (zeros + 1)
  · show Text.numeralValue (Text.ofNat p.digits ++ List.replicate zeros '0' ++ ['0']) = _
    rw [Text.numeralValue_append, Text.numeralValue_append, Text.numeralValue_ofNat,
      Text.numeralValue_replicate_zero, List.length_replicate]
    show 10 ^ 1 * (10 ^ zeros * p.digits + 0) + 0 = _
    ring
  · show (0 : Int) - (1 : Nat) + ((zeros + 1 : Nat) : Int) = _
    omega

theorem exists_number_around {k : Nat} (hk : 0 < k) (hlt : k < (Text.ofNat p.digits).length)
    (hposition : (p.grid : Int) - 1074 + (Text.ofNat p.digits).length = k) :
    ∃ n, Writes n negative
      ((Text.ofNat p.digits).take k ++ '.' :: (Text.ofNat p.digits).drop k) p := by
  have hplain : ((Text.ofNat p.digits).take k).head? ≠ some '0' := by
    rw [List.head?_take, if_neg (by omega)]
    exact Text.head?_ofNat_ne hpos
  refine ⟨⟨negative, (Text.ofNat p.digits).take k, (Text.ofNat p.digits).drop k, none,
    isNumeral_take (Text.isNumeral_ofNat _) hk, Or.inr hplain,
    fun c hc => Text.isDigit_of_mem_ofNat (List.mem_of_mem_drop hc)⟩, rfl, ?_,
    (fun _ he => nomatch he), ?_⟩
  · have hrest : (Text.ofNat p.digits).drop k ≠ [] := by
      rw [ne_eq, List.drop_eq_nil_iff]
      omega
    rw [JsonNumber.size, pointed_of_ne_nil hrest]
    simp [JsonNumber.scaled]
  · apply Decimal.exactRank_of_point 0
    · show Text.numeralValue (List.take k _ ++ List.drop k _) = _
      rw [List.take_append_drop, Text.numeralValue_ofNat, Nat.pow_zero, Nat.mul_one]
    · show (0 : Int) - ((Text.ofNat p.digits).drop k).length + (0 : Nat) = _
      rw [List.length_drop]
      omega

theorem exists_number_scientific {layout : Layout}
    (hplus : layout.exponentPlus ∈ [[], ['+']]) {position : Int}
    (hposition : (p.grid : Int) - 1074 + (Text.ofNat p.digits).length = position)
    (hmoderate : (position - 1).natAbs < Decimal.exponentCeiling) :
    ∃ n, Writes n negative (layout.scientific (Text.ofNat p.digits) position) p := by
  have hlength : 0 < (Text.ofNat p.digits).length := Nat.length_toDigits_pos
  have hplain : ((Text.ofNat p.digits).take 1).head? ≠ some '0' := by
    rw [List.head?_take, if_neg (by decide)]
    exact Text.head?_ofNat_ne hpos
  have hplus' : layout.exponentPlus = [] ∨ layout.exponentPlus = ['+'] := by simpa using hplus
  -- the sign of the exponent, as the layout writes it
  obtain ⟨sign, hsign, htext, hvalue⟩ : ∃ sign ∈ ([[], ['+'], ['-']] : List Text),
      (if 0 ≤ position - 1 then layout.exponentPlus else []) ++ Text.ofInt (position - 1) =
          sign ++ Text.ofNat (position - 1).natAbs ∧
        (if sign = ['-'] then -((position - 1).natAbs : Int) else (position - 1).natAbs) =
          position - 1 := by
    by_cases hneg : position - 1 < 0
    · refine ⟨['-'], by decide, ?_, ?_⟩
      · rw [if_neg (by omega), Text.ofInt, if_pos hneg]
        rfl
      · rw [if_pos rfl]
        omega
    · refine ⟨layout.exponentPlus, ?_, ?_, ?_⟩
      · rcases hplus' with h | h
        · rw [h]; decide
        · rw [h]; decide
      · rw [if_pos (by omega), Text.ofInt, if_neg hneg]
      · have hne : layout.exponentPlus ≠ ['-'] := by
          rcases hplus' with h | h
          · rw [h]; decide
          · rw [h]; decide
        rw [if_neg hne]
        omega
  let e : JsonExponent := ⟨'e', sign, Text.ofNat (position - 1).natAbs, by decide, hsign,
    Text.isNumeral_ofNat _⟩
  refine ⟨⟨negative, (Text.ofNat p.digits).take 1, (Text.ofNat p.digits).drop 1, some e,
    isNumeral_take (Text.isNumeral_ofNat _) (by decide), Or.inr hplain,
    fun c hc => Text.isDigit_of_mem_ofNat (List.mem_of_mem_drop hc)⟩, rfl, ?_, ?_, ?_⟩
  · rw [scientific_eq, htext]
    rfl
  · intro e' he'
    cases he'
    show Text.numeralValue (Text.ofNat _) < _
    rw [Text.numeralValue_ofNat]
    exact hmoderate
  · apply Decimal.exactRank_of_point 0
    · show Text.numeralValue (List.take 1 _ ++ List.drop 1 _) = _
      rw [List.take_append_drop, Text.numeralValue_ofNat, Nat.pow_zero, Nat.mul_one]
    · have he : e.value = position - 1 := by
        rw [JsonExponent.value]
        show (if sign = ['-'] then -(Text.numeralValue (Text.ofNat _) : Int)
          else Text.numeralValue (Text.ofNat _)) = _
        rw [Text.numeralValue_ofNat]
        exact hvalue
      show e.value - ((Text.ofNat p.digits).drop 1).length + (0 : Nat) = _
      rw [he, List.length_drop]
      omega

end

/-- A finite size is a number in JSON that is read as the double it is the size of. -/
theorem exists_number_size {layout : Layout} (hplus : layout.exponentPlus ∈ [[], ['+']])
    (negative : Bool) (x : Binary64) :
    ∃ n : JsonNumber, n.negative = negative ∧ n.size = layout.size x ∧ n.Moderate ∧
      n.decimal.exactRank = x.rank := by
  unfold size
  by_cases hzero : x.rank = 0
  · rw [if_pos hzero, hzero]
    exact ⟨⟨negative, ['0'], ['0'], none, rfl, Or.inl rfl,
      fun _ => Text.isDigit_of_mem_replicate_zero (n := 1)⟩, rfl, rfl,
      (fun _ he => nomatch he), Decimal.exactRank_of_isTiny rfl⟩
  · rw [if_neg hzero]
    have hreads := Shortest.readsBack_ofBinary64 layout.tie x
    have hpos := Shortest.digits_pos hreads hzero
    obtain ⟨hgrid, hlength⟩ := Shortest.ofBinary64_lt layout.tie x
    generalize Shortest.ofBinary64 layout.tie x = p at hreads hpos hgrid hlength
    -- how the point is written is one matter, that it reads back is another
    suffices h : ∃ n, Writes n negative _ p by
      obtain ⟨n, hn⟩ := h
      rw [Shortest.Point.readsBack, beq_iff_eq] at hreads
      exact ⟨n, hn.negative_eq, hn.size_eq, hn.moderate, hn.exactRank_eq.trans hreads⟩
    dsimp only
    generalize hposition : (p.grid : Int) - 1074 + (Text.ofNat p.digits).length = position
    by_cases hplain : layout.leastPlain ≤ position ∧ position ≤ layout.greatestPlain
    · rw [if_pos hplain]
      unfold plain
      by_cases hbehind : position ≤ 0
      · rw [if_pos hbehind]
        exact exists_number_behind negative (by omega)
      · rw [if_neg hbehind]
        by_cases hbefore : (Text.ofNat p.digits).length ≤ position.toNat
        · rw [if_pos hbefore]
          exact exists_number_before negative hpos (by omega)
        · rw [if_neg hbefore]
          exact exists_number_around negative hpos (by omega) (by omega) (by omega)
    · rw [if_neg hplain]
      have hmoderate : (position - 1).natAbs < Decimal.exponentCeiling := by
        unfold Decimal.exponentCeiling
        omega
      exact exists_number_scientific negative hpos hplus hposition hmoderate

/-- **The text of a finite double is a number in JSON** that is read as the double. -/
theorem exists_number_write {layout : Layout} (hplus : layout.exponentPlus ∈ [[], ['+']])
    {x : Binary64} (hfinite : x.isFinite = true) :
    ∃ n : JsonNumber, layout.write x = n.toText ∧ Binary64.ofText? n.toText = some x := by
  obtain ⟨n, hnegative, hsize, hmoderate, hrank⟩ := exists_number_size hplus x.negative x
  refine ⟨n, ?_, ?_⟩
  · rw [write, if_pos hfinite, JsonNumber.toText, hnegative, hsize]
  · calc Binary64.ofText? n.toText = n.decimal.toBinary64? := by
          rw [Binary64.ofText?, n.ofText?_toText hmoderate]
      _ = Binary64.finite? x.negative x.rank := by
          rw [Decimal.toBinary64?_eq, hrank, ← hnegative]
          rfl
      _ = some x := Binary64.finite?_rank hfinite

/-! ## Where exponents begin -/

/-- The two powers of ten that bound plain writing are their own shortest forms. -/
structure Settled (layout : Layout) : Prop where
  least_le : layout.leastPlain ≤ 0
  least_ge : -1000 ≤ layout.leastPlain
  greatest_ge : 0 ≤ layout.greatestPlain
  greatest_le : layout.greatestPlain ≤ 400
  least_shortest : ∀ negative, Shortest.ofBinary64 layout.tie
    (Binary64.ofRank negative (Shortest.powerRank (layout.leastPlain - 1))) =
      ⟨1, (1074 + (layout.leastPlain - 1)).toNat⟩
  greatest_shortest : ∀ negative, Shortest.ofBinary64 layout.tie
    (Binary64.ofRank negative (Shortest.powerRank layout.greatestPlain)) =
      ⟨1, (1074 + layout.greatestPlain).toNat⟩
  greatest_pos : 0 < Shortest.powerRank layout.greatestPlain

theorem settled_logged : logged.Settled where
  least_le := by decide
  least_ge := by decide
  greatest_ge := by decide
  greatest_le := by decide
  least_shortest := by decide +kernel
  greatest_shortest := by decide +kernel
  greatest_pos := by decide +kernel

theorem settled_published : published.Settled where
  least_le := by decide
  least_ge := by decide
  greatest_ge := by decide
  greatest_le := by decide
  least_shortest := by decide +kernel
  greatest_shortest := by decide +kernel
  greatest_pos := by decide +kernel

/-- The size is written plainly: it is zero, or it is between the bounds. -/
def WritesPlain (layout : Layout) (x : Binary64) : Prop :=
  x.rank = 0 ∨ Shortest.powerRank (layout.leastPlain - 1) ≤ x.rank ∧
    x.rank < Shortest.powerRank layout.greatestPlain

theorem not_mem_ofNat {c : Char} (h : c.isDigit = false) (n : Nat) : c ∉ Text.ofNat n := by
  intro hc
  rw [Text.isDigit_of_mem_ofNat hc] at h
  cases h

theorem not_mem_ofInt {c : Char} (h : c.isDigit = false) (hsign : c ≠ '-') (z : Int) :
    c ∉ Text.ofInt z := by
  unfold Text.ofInt
  by_cases hneg : z < 0
  · rw [if_pos hneg]
    exact List.not_mem_cons_of_ne_of_not_mem hsign (not_mem_ofNat h _)
  · rw [if_neg hneg]
    exact not_mem_ofNat h _

theorem not_mem_plain {c : Char} (hc : c.isDigit = false) (hpoint : c ≠ '.') {digits : Text}
    (hdigits : c ∉ digits) (position : Int) : c ∉ plain digits position := by
  have hzero : c ≠ '0' := by rintro rfl; cases hc
  have hzeros : ∀ n, c ∉ List.replicate n '0' := by
    intro n hn
    exact hzero (List.mem_replicate.mp hn).2
  have hdot : c ∉ "0.".toList := by simp [hzero, hpoint]
  have hdot' : c ∉ ".0".toList := by simp [hzero, hpoint]
  have htake : ∀ n, c ∉ digits.take n := fun n hn => hdigits (List.mem_of_mem_take hn)
  have hdrop : ∀ n, c ∉ digits.drop n := fun n hn => hdigits (List.mem_of_mem_drop hn)
  unfold plain
  split_ifs
  · simp only [List.mem_append, hdot, hzeros, hdigits, or_self, not_false_iff]
  · simp only [List.mem_append, hdot', hzeros, hdigits, or_self, not_false_iff]
  · simp only [List.mem_append, List.mem_cons, htake, hdrop, hpoint, or_self, not_false_iff]

theorem point_mem_plain (digits : Text) (position : Int) : '.' ∈ plain digits position := by
  unfold plain
  split_ifs
  · exact List.mem_append_left _ (List.mem_append_left _ (by decide))
  · exact List.mem_append_right _ (by decide)
  · exact List.mem_append_right _ List.mem_cons_self

theorem mem_scientific (layout : Layout) (digits : Text) (position : Int) :
    'e' ∈ layout.scientific digits position := by
  simp [scientific]

/-- No plus sign stands anywhere but before the digits of an exponent that is not negative. -/
theorem plus_mem_scientific {layout : Layout} {digits : Text} (hdigits : '+' ∉ digits)
    (position : Int) : '+' ∈ layout.scientific digits position ↔
      '+' ∈ layout.exponentPlus ∧ 0 < position := by
  have htake : '+' ∉ digits.take 1 := fun h => hdigits (List.mem_of_mem_take h)
  have hplaces : '+' ∉ JsonNumber.pointed (digits.drop 1) := by
    have hdrop : '+' ∉ digits.drop 1 := fun h => hdigits (List.mem_of_mem_drop h)
    generalize digits.drop 1 = rest at hdrop
    cases rest with
    | nil => exact List.not_mem_nil
    | cons c rest => exact List.not_mem_cons_of_ne_of_not_mem (by decide) hdrop
  have hexponent : '+' ∉ Text.ofInt (position - 1) := not_mem_ofInt rfl (by decide) _
  have hletter : '+' ≠ 'e' := by decide
  rw [scientific_eq]
  simp only [List.mem_append, List.mem_cons, htake, hplaces, hexponent, hletter, false_or,
    or_false]
  by_cases hsign : 0 ≤ position - 1
  · rw [if_pos hsign]
    have hpos : 0 < position := by omega
    simp only [hpos, and_true]
  · rw [if_neg hsign]
    have hpos : ¬ 0 < position := by omega
    simp only [hpos, and_false, List.not_mem_nil]

/-- The bounds show in the position of the point. -/
theorem powerRank_iff_position {layout : Layout} (hsettled : layout.Settled) {x : Binary64}
    (hfinite : x.isFinite = true) (hpos : 0 < (Shortest.ofBinary64 layout.tie x).digits) :
    (Shortest.powerRank (layout.leastPlain - 1) ≤ x.rank ↔
      layout.leastPlain - 1 < ((Shortest.ofBinary64 layout.tie x).grid : Int) - 1074 +
        (Text.ofNat (Shortest.ofBinary64 layout.tie x).digits).length) ∧
    (Shortest.powerRank layout.greatestPlain ≤ x.rank ↔
      layout.greatestPlain < ((Shortest.ofBinary64 layout.tie x).grid : Int) - 1074 +
        (Text.ofNat (Shortest.ofBinary64 layout.tie x).digits).length) := by
  obtain ⟨hleast_le, hleast_ge, hgreatest_ge, hgreatest_le, hleast, hgreatest, -⟩ := hsettled
  constructor
  · apply Shortest.powerRank_le_iff hfinite _ _ hleast hpos
    · clear hpos
      omega
    · clear hpos
      omega
  · apply Shortest.powerRank_le_iff hfinite _ _ hgreatest hpos
    · clear hpos
      omega
    · clear hpos
      omega

/-- **A size is written plainly exactly between the bounds**, and an exponent that is not
negative stands exactly from the greater one on. -/
theorem mem_size {layout : Layout} (hsettled : layout.Settled) {x : Binary64}
    (hfinite : x.isFinite = true) :
    ('e' ∈ layout.size x ↔ ¬ layout.WritesPlain x) ∧
      ('+' ∈ layout.size x ↔
        '+' ∈ layout.exponentPlus ∧ Shortest.powerRank layout.greatestPlain ≤ x.rank) := by
  have hreads := Shortest.readsBack_ofBinary64 layout.tie x
  have hbounds := powerRank_iff_position hsettled hfinite
  have hgreatest_pos := hsettled.greatest_pos
  have hleast_le := hsettled.least_le
  have hgreatest_ge := hsettled.greatest_ge
  unfold size WritesPlain
  -- from here on only the point and the two bounds count
  generalize Shortest.powerRank (layout.leastPlain - 1) = least at hbounds ⊢
  generalize Shortest.powerRank layout.greatestPlain = greatest at hbounds hgreatest_pos ⊢
  generalize Shortest.ofBinary64 layout.tie x = p at hreads hbounds ⊢
  generalize x.rank = rank at hreads hbounds ⊢
  by_cases hzero : rank = 0
  · rw [if_pos hzero]
    constructor
    · exact iff_of_false (by decide) (not_not_intro (Or.inl hzero))
    · exact iff_of_false (by decide) fun h => Nat.not_le.mpr hgreatest_pos (hzero ▸ h.2)
  · rw [if_neg hzero]
    dsimp only
    have hletter := not_mem_ofNat (c := 'e') rfl p.digits
    have hplus := not_mem_ofNat (c := '+') rfl p.digits
    obtain ⟨hleast, hgreatest⟩ := hbounds (Shortest.digits_pos hreads hzero)
    generalize (p.grid : Int) - 1074 + (Text.ofNat p.digits).length = position
      at hleast hgreatest ⊢
    by_cases hplain : layout.leastPlain ≤ position ∧ position ≤ layout.greatestPlain
    · have hbetween : least ≤ rank ∧ rank < greatest := by omega
      rw [if_pos hplain]
      constructor
      · exact iff_of_false (not_mem_plain rfl (by decide) hletter position)
          (not_not_intro (Or.inr hbetween))
      · exact iff_of_false (not_mem_plain rfl (by decide) hplus position)
          fun h => Nat.not_le.mpr hbetween.2 h.2
    · have hbeyond : ¬ (rank = 0 ∨ least ≤ rank ∧ rank < greatest) := by omega
      rw [if_neg hplain]
      constructor
      · exact iff_of_true (mem_scientific layout _ _) hbeyond
      · have hposition : 0 < position ↔ greatest ≤ rank := by omega
        rw [plus_mem_scientific hplus, hposition]

/-- The text of a double is its size, and a sign at most. -/
theorem mem_write_iff_mem_size {layout : Layout} {x : Binary64} (hfinite : x.isFinite = true)
    {c : Char} (hc : c ≠ '-') : c ∈ layout.write x ↔ c ∈ layout.size x := by
  rw [write, if_pos hfinite]
  cases x.negative with
  | false => rw [if_neg Bool.false_ne_true]
  | true =>
      rw [if_pos rfl, List.mem_cons]
      exact or_iff_right hc

/-- A double never looks like an integer. -/
theorem point_or_letter_mem_write (layout : Layout) {x : Binary64}
    (hfinite : x.isFinite = true) : '.' ∈ layout.write x ∨ 'e' ∈ layout.write x := by
  rw [mem_write_iff_mem_size hfinite (by decide), mem_write_iff_mem_size hfinite (by decide)]
  unfold size
  generalize Shortest.ofBinary64 layout.tie x = p
  dsimp only
  split_ifs
  · exact Or.inl (by decide)
  · exact Or.inl (point_mem_plain _ _)
  · exact Or.inr (mem_scientific layout _ _)

/-- What holds of the size holds of the text: the sign of a double is neither letter nor plus. -/
theorem mem_write {layout : Layout} (hsettled : layout.Settled) {x : Binary64}
    (hfinite : x.isFinite = true) :
    ('e' ∈ layout.write x ↔ ¬ layout.WritesPlain x) ∧
      ('+' ∈ layout.write x ↔
        '+' ∈ layout.exponentPlus ∧ Shortest.powerRank layout.greatestPlain ≤ x.rank) := by
  rw [mem_write_iff_mem_size hfinite (by decide), mem_write_iff_mem_size hfinite (by decide)]
  exact mem_size hsettled hfinite

end Layout

end RadarProfile
