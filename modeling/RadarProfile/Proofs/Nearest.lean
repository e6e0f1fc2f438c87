import Mathlib.Algebra.Order.Field.Rat
import Mathlib.Data.Nat.Cast.Order.Field
import Mathlib.Tactic.FieldSimp
import Mathlib.Tactic.Linarith
import Mathlib.Tactic.Positivity
import RadarProfile.Proofs.Conversion
import RadarProfile.Proofs.Rounding

set_option autoImplicit false

/-! # The nearest double

A double has a value among the rational numbers, and `IsNearest` says which double a rational
number is rounded to: none is nearer, and of two that are equally near it is the one with the
even significand. The sign is left open by that at zero alone, so with it there is one such
double (`IsNearest.unique`). The double of the nearest rank is it (`isNearest_ofRank`): on the
grid of its own binade it is the nearest whole number, and what lies below that binade is
farther away. Beyond half a step above the greatest finite double the rank is too large
(`unitsRank_lt_iff`). So a decimal number is rounded correctly, whatever its size
(`Decimal.toBinary64?_eq_some_iff`). -/

namespace RadarProfile

/-! ## The nearest whole number -/

section RoundHalfEven

variable (num : Nat) {den : Nat} (hden : 0 < den)

include hden

theorem cast_div_eq : (num / den : ℚ) = (num / den : Nat) + (num % den : Nat) / den := by
  have hpositive : (0 : ℚ) < den := Nat.cast_pos.mpr hden
  rw [eq_comm, ← eq_sub_iff_add_eq', ← mul_left_inj' hpositive.ne', sub_mul,
    div_mul_cancel₀ _ hpositive.ne', div_mul_cancel₀ _ hpositive.ne', eq_sub_iff_add_eq']
  exact_mod_cast Nat.div_add_mod' num den

/-- Rounding goes half a step at most, and half a step only to an even number. -/
theorem abs_sub_roundHalfEven_le :
    |(num / den : ℚ) - roundHalfEven num den| ≤ 1 / 2 ∧
      (|(num / den : ℚ) - roundHalfEven num den| = 1 / 2 → roundHalfEven num den % 2 = 0) := by
  have hpositive : (0 : ℚ) < den := Nat.cast_pos.mpr hden
  have hremainder : num % den < den := Nat.mod_lt _ hden
  have hfraction : (0 : ℚ) ≤ (num % den : Nat) / den := by positivity
  rw [cast_div_eq num hden]
  unfold roundHalfEven
  dsimp only
  split_ifs with hbelow habove heven
  · -- less than half a step is dropped
    have hless : ((num % den : Nat) : ℚ) / den < 1 / 2 := by
      rw [div_lt_div_iff₀ hpositive two_pos]
      exact_mod_cast (by omega : num % den * 2 < 1 * den)
    rw [add_sub_cancel_left, abs_of_nonneg hfraction]
    exact ⟨hless.le, fun h => absurd h hless.ne⟩
  · -- less than half a step is added
    have hmore : 1 / 2 < ((num % den : Nat) : ℚ) / den := by
      rw [div_lt_div_iff₀ two_pos hpositive]
      exact_mod_cast (by omega : 1 * den < num % den * 2)
    have hless : ((num % den : Nat) : ℚ) / den < 1 := by
      rw [div_lt_one hpositive]
      exact_mod_cast hremainder
    rw [Nat.cast_add_one, add_sub_add_left_eq_sub, abs_of_neg (by linarith)]
    exact ⟨by linarith, fun h => by linarith⟩
  · have hhalf : ((num % den : Nat) : ℚ) / den = 1 / 2 := by
      rw [div_eq_div_iff hpositive.ne' two_ne_zero]
      exact_mod_cast (by omega : num % den * 2 = 1 * den)
    rw [add_sub_cancel_left, abs_of_nonneg hfraction, hhalf]
    exact ⟨le_refl _, fun _ => heven⟩
  · have hhalf : ((num % den : Nat) : ℚ) / den = 1 / 2 := by
      rw [div_eq_div_iff hpositive.ne' two_ne_zero]
      exact_mod_cast (by omega : num % den * 2 = 1 * den)
    rw [Nat.cast_add_one, add_sub_add_left_eq_sub, hhalf]
    exact ⟨by norm_num, fun _ => by omega⟩

/-- **No whole number is nearer than the rounded one**, and if another one is as near the
rounded one is even. -/
theorem roundHalfEven_nearest (k : Nat) :
    |(num / den : ℚ) - roundHalfEven num den| ≤ |(num / den : ℚ) - k| ∧
      (|(num / den : ℚ) - roundHalfEven num den| = |(num / den : ℚ) - k| →
        k = roundHalfEven num den ∨ roundHalfEven num den % 2 = 0) := by
  obtain ⟨hhalf, heven⟩ := abs_sub_roundHalfEven_le num hden
  by_cases hk : k = roundHalfEven num den
  · rw [hk]
    exact ⟨le_refl _, fun _ => Or.inl rfl⟩
  · have hstep : (1 : ℚ) ≤ |(k : ℚ) - roundHalfEven num den| := by
      exact_mod_cast Int.one_le_abs (show (k : ℤ) - roundHalfEven num den ≠ 0 by omega)
    have htriangle := abs_sub_le (k : ℚ) (num / den) (roundHalfEven num den)
    rw [abs_sub_comm (k : ℚ) (num / den)] at htriangle
    exact ⟨by linarith, fun h => Or.inr (heven (by linarith))⟩

/-- What is less than half a step below a number is rounded to less than a step below it. -/
theorem roundHalfEven_lt {k : Nat} (h : 2 * num + den < 2 * k * den) :
    roundHalfEven num den < k := by
  have hquotient := Nat.div_add_mod num den
  have hremainder : num % den < den := Nat.mod_lt _ hden
  have hlt : num / den < k := by
    rw [Nat.div_lt_iff_lt_mul hden]
    nlinarith
  unfold roundHalfEven
  dsimp only
  split_ifs with hbelow habove heven
  · exact hlt
  · by_contra hk
    obtain rfl : k = num / den + 1 := by omega
    nlinarith
  · exact hlt
  · by_contra hk
    obtain rfl : k = num / den + 1 := by omega
    nlinarith

end RoundHalfEven

namespace Binary64

/-! ## Values -/

def signFactor (negative : Bool) : ℚ := if negative then -1 else 1

def value (x : Binary64) : ℚ := signFactor x.negative * (x.units / 2 ^ 1074)

/-- The double is the nearest to a rational number: it is finite, no finite double is nearer,
and if one of another value is as near the significand is even. -/
structure IsNearest (x : Binary64) (q : ℚ) : Prop where
  isFinite : x.isFinite = true
  le : ∀ y : Binary64, y.isFinite = true → |q - x.value| ≤ |q - y.value|
  even : ∀ y : Binary64, y.isFinite = true → |q - x.value| = |q - y.value| →
    y.value = x.value ∨ x.fraction.val % 2 = 0

/-- Half a step above the greatest finite double: sizes from here on are too large. -/
def overflow : ℚ := 2 ^ 1024 - 2 ^ 970

/-! ## Units on the grid of a binade -/

theorem fraction_ofRank (negative : Bool) (rank : Nat) :
    (ofRank negative rank).fraction.val = rank % 4503599627370496 := rfl

theorem exponent_ofRank (negative : Bool) {rank : Nat} (h : rank < finiteRanks) :
    (ofRank negative rank).exponent.val = rank / 4503599627370496 := by
  show rank / 4503599627370496 % 2048 = rank / 4503599627370496
  unfold finiteRanks at h
  omega

theorem isFinite_ofRank (negative : Bool) {rank : Nat} (h : rank < finiteRanks) :
    (ofRank negative rank).isFinite = true := by
  rw [isFinite, decide_eq_true_eq, exponent_ofRank negative h]
  unfold finiteRanks at h
  omega

theorem rank_ofRank (negative : Bool) {rank : Nat} (h : rank < finiteRanks) :
    (ofRank negative rank).rank = rank := by
  rw [Binary64.rank, exponent_ofRank negative h, fraction_ofRank]
  omega

/-- Each rank below that of the infinity is that of a finite double, with either sign. -/
theorem exists_isFinite_of_rank (negative : Bool) {rank : Nat} (h : rank < finiteRanks) :
    ∃ x : Binary64, x.isFinite = true ∧ x.negative = negative ∧ x.rank = rank :=
  ⟨ofRank negative rank, isFinite_ofRank negative h, rfl, rank_ofRank negative h⟩

/-- **The units of a rank**, which is a significand and the number of bits that are dropped
behind it. -/
theorem units_ofRank (negative : Bool) {dropped significand : Nat}
    (hle : significand ≤ 9007199254740992)
    (hlow : dropped ≠ 0 → 4503599627370496 ≤ significand)
    (hfinite : dropped * 4503599627370496 + significand < finiteRanks) :
    (ofRank negative (dropped * 4503599627370496 + significand)).units =
      significand * 2 ^ dropped := by
  rw [units, exponent_ofRank negative hfinite, fraction_ofRank]
  by_cases hcarry : significand = 9007199254740992
  · -- the significand is the next power of two
    have hexponent : (dropped * 4503599627370496 + significand) / 4503599627370496 =
        dropped + 2 := by omega
    have hfraction : (dropped * 4503599627370496 + significand) % 4503599627370496 = 0 := by
      omega
    rw [hexponent, hfraction, if_neg (by omega), hcarry]
    show 4503599627370496 * 2 ^ (dropped + 1) = 9007199254740992 * 2 ^ dropped
    rw [Nat.pow_succ]
    omega
  · by_cases hnormal : 4503599627370496 ≤ significand
    · have hexponent : (dropped * 4503599627370496 + significand) / 4503599627370496 =
          dropped + 1 := by omega
      have hfraction : 4503599627370496 +
          (dropped * 4503599627370496 + significand) % 4503599627370496 = significand := by
        omega
      rw [hexponent, hfraction, if_neg (by omega)]
      rfl
    · -- without a leading bit none is dropped
      obtain rfl : dropped = 0 := by
        by_contra hdropped
        exact hnormal (hlow hdropped)
      rw [if_pos (by omega)]
      omega

/-- A double lies on the grid that a number of dropped bits leaves, or below its binade. -/
theorem exists_units_eq_or_lt (y : Binary64) (dropped : Nat) :
    (∃ k, y.units = k * 2 ^ dropped) ∨ dropped ≠ 0 ∧ y.units < 2 ^ (52 + dropped) := by
  have hfraction := y.fraction.isLt
  by_cases hdropped : dropped = 0
  · exact Or.inl ⟨y.units, by rw [hdropped, Nat.pow_zero, Nat.mul_one]⟩
  by_cases hzero : y.exponent.val = 0
  · refine Or.inr ⟨hdropped, ?_⟩
    calc y.units = y.fraction.val := if_pos hzero
      _ < 2 ^ 52 := hfraction
      _ ≤ 2 ^ (52 + dropped) := Nat.pow_le_pow_right (by decide) (by omega)
  have hunits : y.units = (4503599627370496 + y.fraction.val) * 2 ^ (y.exponent.val - 1) :=
    if_neg hzero
  by_cases hgrid : dropped ≤ y.exponent.val - 1
  · obtain ⟨more, hmore⟩ := Nat.exists_eq_add_of_le' hgrid
    refine Or.inl ⟨(4503599627370496 + y.fraction.val) * 2 ^ more, ?_⟩
    rw [hunits, hmore, Nat.pow_add, Nat.mul_assoc]
  · refine Or.inr ⟨hdropped, ?_⟩
    calc y.units < 9007199254740992 * 2 ^ (y.exponent.val - 1) := by
          rw [hunits]
          exact Nat.mul_lt_mul_of_pos_right (by omega) (Nat.two_pow_pos _)
      _ = 2 ^ (53 + (y.exponent.val - 1)) := (Nat.pow_add 2 53 _).symm
      _ ≤ 2 ^ (52 + dropped) := Nat.pow_le_pow_right (by decide) (by omega)

theorem abs_sub_grid (num : Nat) {den : Nat} (hden : 0 < den) (dropped k : Nat) :
    |(num / den : ℚ) - (k * 2 ^ dropped : Nat)| =
      2 ^ dropped * |(num / (den * 2 ^ dropped : Nat) : ℚ) - k| := by
  have hpow : (0 : ℚ) < 2 ^ dropped := by positivity
  have hpositive : (0 : ℚ) < den := Nat.cast_pos.mpr hden
  have hscale : (num / den : ℚ) - (k * 2 ^ dropped : Nat) =
      2 ^ dropped * ((num / (den * 2 ^ dropped : Nat) : ℚ) - k) := by
    push_cast
    field_simp
  rw [hscale, abs_mul, abs_of_pos hpow]

/-- **In units, no double is nearer than that of the nearest rank**, and if one of another
size is as near its significand is even. -/
theorem abs_sub_units_le (negative : Bool) (num : Nat) {den : Nat} (hden : 0 < den)
    (hfinite : unitsRank num den < finiteRanks) (y : Binary64) :
    |(num / den : ℚ) - (ofRank negative (unitsRank num den)).units| ≤
        |(num / den : ℚ) - y.units| ∧
      (|(num / den : ℚ) - (ofRank negative (unitsRank num den)).units| =
          |(num / den : ℚ) - y.units| →
        y.units = (ofRank negative (unitsRank num den)).units ∨
          (ofRank negative (unitsRank num den)).fraction.val % 2 = 0) := by
  rw [fraction_ofRank]
  unfold unitsRank at hfinite ⊢
  dsimp only at hfinite ⊢
  generalize hdropped : (num / den).log2 + 1 - 53 = dropped at hfinite ⊢
  have hgrid : 0 < den * 2 ^ dropped := Nat.mul_pos hden (Nat.two_pow_pos _)
  have hpow : (0 : ℚ) < 2 ^ dropped := by positivity
  rw [units_ofRank negative (significand_le hdropped) (le_significand hdropped) hfinite]
  rcases exists_units_eq_or_lt y dropped with ⟨k, hk⟩ | ⟨hnonzero, hbelow⟩
  · -- on the grid, distances are those of whole numbers
    rw [hk, abs_sub_grid num hden, abs_sub_grid num hden]
    obtain ⟨hle, heven⟩ := roundHalfEven_nearest num hgrid k
    refine ⟨mul_le_mul_of_nonneg_left hle hpow.le, fun h => ?_⟩
    rcases heven (mul_left_cancel₀ hpow.ne' h) with rfl | heven
    · exact Or.inl rfl
    · exact Or.inr (by omega)
  · -- the least double of the binade lies on the grid, and nearer than what is below it
    have hbinade : ((2 ^ (52 + dropped) : Nat) : ℚ) ≤ num / den := by
      rw [le_div_iff₀ (Nat.cast_pos.mpr hden)]
      exact_mod_cast (Nat.le_div_iff_mul_le hden).mp (two_pow_le_of_dropped hdropped hnonzero)
    have hleast : (2 ^ (52 + dropped) : Nat) = 4503599627370496 * 2 ^ dropped :=
      Nat.pow_add 2 52 dropped
    have hnear : |(num / den : ℚ) -
        (roundHalfEven num (den * 2 ^ dropped) * 2 ^ dropped : Nat)| ≤
          |(num / den : ℚ) - (2 ^ (52 + dropped) : Nat)| := by
      rw [hleast, abs_sub_grid num hden, abs_sub_grid num hden]
      exact mul_le_mul_of_nonneg_left (roundHalfEven_nearest num hgrid _).1 hpow.le
    have hfar : |(num / den : ℚ) - (2 ^ (52 + dropped) : Nat)| <
        |(num / den : ℚ) - y.units| := by
      have hlt : (y.units : ℚ) < (2 ^ (52 + dropped) : Nat) := Nat.cast_lt.mpr hbelow
      rw [abs_of_nonneg (by linarith), abs_of_nonneg (by linarith)]
      linarith
    exact ⟨(hnear.trans_lt hfar).le, fun h => absurd h (hnear.trans_lt hfar).ne⟩

/-! ## Overflow -/

/-- A significand is not carried to the next power of two by less than half a step. -/
theorem significand_lt {num den dropped k : Nat} (hdropped : dropped = k + 1)
    (h : num < 2 ^ k * 18014398509481983 * den) :
    roundHalfEven num (den * 2 ^ dropped) < 9007199254740992 := by
  rw [Nat.mul_right_comm, Nat.mul_comm (2 ^ k) den] at h
  rw [hdropped, Nat.pow_succ', Nat.mul_left_comm den]
  generalize den * 2 ^ k = step at h ⊢
  exact roundHalfEven_lt num (by omega) (by omega)

/-- **The nearest rank is finite** for what lies below half a step above the greatest finite
double, and for nothing else. -/
theorem unitsRank_lt_iff (num : Nat) {den : Nat} (hden : 0 < den) :
    unitsRank num den < finiteRanks ↔ num < 2 ^ 2044 * 18014398509481983 * den := by
  have hbound : unitsRank (2 ^ 2044 * 18014398509481983) 1 = finiteRanks := by decide +kernel
  constructor
  · -- the rank of the bound is one too many, and what is not below it has no smaller one
    intro h
    by_contra hlarge
    have hrank := unitsRank_mono (Nat.not_lt.mp hlarge) den
    have hscale := unitsRank_scale (2 ^ 2044 * 18014398509481983) 1 hden
    rw [Nat.one_mul, hbound] at hscale
    omega
  · intro h
    have hdropped : (num / den).log2 + 1 - 53 ≤ 2045 := by
      have hquotient : num / den < 2 ^ 2098 := by
        rw [Nat.div_lt_iff_lt_mul hden]
        refine h.trans_le (Nat.mul_le_mul_right _ ?_)
        decide +kernel
      by_cases hzero : num / den = 0
      · rw [hzero, Nat.log2_zero]
        omega
      · have := (Nat.log2_lt hzero).mpr hquotient
        omega
    have hcarry : roundHalfEven num (den * 2 ^ ((num / den).log2 + 1 - 53)) ≤
        9007199254740992 := significand_le rfl
    unfold unitsRank finiteRanks
    dsimp only
    rcases Nat.lt_or_eq_of_le hdropped with hlt | heq
    · omega
    · -- in the last binade there is no carry
      have hsignificand := significand_lt heq h
      omega

/-! ## The double of a rank -/

theorem abs_signFactor_mul (negative : Bool) (v : ℚ) : |signFactor negative * v| = |v| := by
  cases negative with
  | false => rw [signFactor, if_neg Bool.false_ne_true, one_mul]
  | true => rw [signFactor, if_pos rfl, neg_one_mul, abs_neg]

/-- Numbers of one sign are as far apart as their sizes, and numbers of two signs as far as
their sizes together. -/
theorem abs_signFactor_sub (negative negative' : Bool) {v v' : ℚ} (h : 0 ≤ v) (h' : 0 ≤ v') :
    |signFactor negative * v - signFactor negative' * v'| =
      if negative = negative' then |v - v'| else v + v' := by
  by_cases hsign : negative = negative'
  · rw [if_pos hsign, hsign, ← mul_sub, abs_signFactor_mul]
  · rw [if_neg hsign]
    have hsum : 0 ≤ v + v' := add_nonneg h h'
    cases negative with
    | false =>
        cases negative' with
        | false => exact absurd rfl hsign
        | true =>
            rw [signFactor, if_neg Bool.false_ne_true, signFactor, if_pos rfl, one_mul,
              neg_one_mul, sub_neg_eq_add, abs_of_nonneg hsum]
    | true =>
        cases negative' with
        | false =>
            rw [signFactor, if_pos rfl, signFactor, if_neg Bool.false_ne_true, one_mul,
              neg_one_mul, ← neg_add', abs_neg, abs_of_nonneg hsum]
        | true => exact absurd rfl hsign

theorem abs_sub_value (negative : Bool) {v : ℚ} (hv : 0 ≤ v) (y : Binary64) :
    |signFactor negative * (v / 2 ^ 1074) - y.value| =
      (if negative = y.negative then |v - y.units| else v + y.units) / 2 ^ 1074 := by
  have hunits : (0 : ℚ) ≤ y.units := Nat.cast_nonneg _
  rw [value]
  have hunit : (0 : ℚ) < 2 ^ 1074 := by positivity
  generalize (2 : ℚ) ^ 1074 = unit at hunit ⊢
  rw [abs_signFactor_sub _ _ (div_nonneg hv hunit.le) (div_nonneg hunits hunit.le)]
  split_ifs
  · rw [← sub_div, abs_div, abs_of_pos hunit]
  · rw [add_div]

theorem isNearest_of_units {x : Binary64} (hfinite : x.isFinite = true) {v : ℚ} (hv : 0 ≤ v)
    (h : ∀ y : Binary64, |v - x.units| ≤ |v - y.units| ∧
      (|v - x.units| = |v - y.units| → y.units = x.units ∨ x.fraction.val % 2 = 0)) :
    x.IsNearest (signFactor x.negative * (v / 2 ^ 1074)) := by
  have hunit : (0 : ℚ) < 2 ^ 1074 := by positivity
  have hnear : |signFactor x.negative * (v / 2 ^ 1074) - x.value| =
      |v - x.units| / 2 ^ 1074 := by
    rw [abs_sub_value x.negative hv, if_pos rfl]
  have hother : ∀ y : Binary64, |v - y.units| ≤ v + y.units := by
    intro y
    have hunits : (0 : ℚ) ≤ y.units := Nat.cast_nonneg _
    rw [abs_sub_le_iff]
    constructor <;> linarith
  refine ⟨hfinite, ?_, ?_⟩
  · intro y _
    rw [hnear, abs_sub_value x.negative hv, div_le_div_iff_of_pos_right hunit]
    split_ifs
    · exact (h y).1
    · exact (h y).1.trans (hother y)
  · intro y _ heq
    rw [hnear, abs_sub_value x.negative hv, div_left_inj' hunit.ne'] at heq
    split_ifs at heq with hsign
    · refine (h y).2 heq |>.imp_left fun hunits => ?_
      rw [value, value, hunits, hsign]
    · -- one of another sign is no nearer than zero, so both are zero
      have hzero := (h (ofRank false 0)).1
      have hnone : (ofRank false 0).units = 0 := by decide
      rw [hnone, Nat.cast_zero, sub_zero, abs_of_nonneg hv, heq] at hzero
      have hy : (y.units : ℚ) = 0 := le_antisymm (by linarith) (Nat.cast_nonneg _)
      rw [hy, add_zero] at heq
      have hx := (h y).2 (by rw [heq, hy, sub_zero, abs_of_nonneg hv])
      refine hx.imp_left fun hunits => ?_
      rw [value, value, ← hunits, hy, zero_div, mul_zero, mul_zero]

theorem cast_units_div (num den places : Nat) :
    ((num * Nat.pow 2 places : Nat) : ℚ) / den / 2 ^ places = num / den := by
  have hunit : (0 : ℚ) < 2 ^ places := by positivity
  rw [show Nat.pow 2 places = 2 ^ places from rfl, Nat.cast_mul, Nat.cast_pow, Nat.cast_ofNat,
    div_right_comm, mul_div_cancel_right₀ _ hunit.ne']

/-- **The double of the nearest rank is the nearest one**, with either sign. -/
theorem isNearest_ofRank (negative : Bool) (num : Nat) {den : Nat} (hden : 0 < den)
    (hfinite : nearestRank num den < finiteRanks) :
    (ofRank negative (nearestRank num den)).IsNearest (signFactor negative * (num / den)) := by
  have hnearest : ∀ units : Nat, unitsRank units den < finiteRanks →
      (ofRank negative (unitsRank units den)).IsNearest
        (signFactor negative * (units / den / 2 ^ 1074)) := fun units hfinite =>
    isNearest_of_units (isFinite_ofRank negative hfinite)
      (div_nonneg (Nat.cast_nonneg _) (Nat.cast_nonneg _))
      (abs_sub_units_le negative units hden hfinite)
  have hrank := hnearest (num * Nat.pow 2 1074) hfinite
  rw [nearestRank_eq_unitsRank]
  generalize 1074 = places at hrank ⊢
  rwa [cast_units_div] at hrank

theorem scaled_lt_iff {num den : Nat} (hden : 0 < den) {k places total : Nat}
    (htotal : total = k + places) (size : Nat) :
    num * Nat.pow 2 places < 2 ^ total * size * den ↔ (num / den : ℚ) < 2 ^ k * size := by
  rw [div_lt_iff₀ (Nat.cast_pos.mpr hden), htotal, Nat.pow_add, Nat.mul_right_comm (2 ^ k),
    Nat.mul_right_comm _ (2 ^ places), show Nat.pow 2 places = 2 ^ places from rfl,
    Nat.mul_lt_mul_right (Nat.two_pow_pos places)]
  exact_mod_cast Iff.rfl

theorem overflow_eq : overflow = 2 ^ 970 * (18014398509481983 : Nat) := by
  have hsplit : ∀ k : Nat, (2 : ℚ) ^ (k + 54) - 2 ^ k = 2 ^ k * (18014398509481983 : Nat) := by
    intro k
    rw [pow_add]
    push_cast
    ring
  exact hsplit 970

/-- The nearest rank is finite for what lies below the overflow. -/
theorem nearestRank_lt_iff (num : Nat) {den : Nat} (hden : 0 < den) :
    nearestRank num den < finiteRanks ↔ (num / den : ℚ) < overflow := by
  have htotal : 2044 = 970 + 1074 := rfl
  rw [nearestRank_eq_unitsRank, unitsRank_lt_iff _ hden, overflow_eq]
  generalize 1074 = places at htotal ⊢
  generalize 2044 = total at htotal ⊢
  exact scaled_lt_iff hden htotal _

/-! ## There is one nearest double -/

theorem rank_le_of_units_le {x y : Binary64} (h : x.units ≤ y.units) : x.rank ≤ y.rank := by
  rw [← unitsRank_units x Nat.one_pos, ← unitsRank_units y Nat.one_pos]
  exact unitsRank_mono (Nat.mul_le_mul_right 1 h) 1

theorem abs_sub_value_eq (q : ℚ) (y : Binary64) :
    |q - y.value| = |signFactor y.negative * q * 2 ^ 1074 - y.units| / 2 ^ 1074 := by
  have hunit : (0 : ℚ) < 2 ^ 1074 := by positivity
  rw [value]
  generalize (2 : ℚ) ^ 1074 = unit at hunit ⊢
  have hsquare : signFactor y.negative * signFactor y.negative = 1 := by
    cases y.negative with
    | false => rw [signFactor, if_neg Bool.false_ne_true, one_mul]
    | true => rw [signFactor, if_pos rfl, neg_one_mul, neg_neg]
  have hside : q - signFactor y.negative * (y.units / unit) =
      signFactor y.negative * ((signFactor y.negative * q * unit - y.units) / unit) := by
    rw [sub_div, mul_div_cancel_right₀ _ hunit.ne', mul_sub, ← mul_assoc, hsquare, one_mul]
  rw [hside, abs_signFactor_mul, abs_div, abs_of_pos hunit]

/-- Between two numbers that are equally far away there is none that is as far. -/
theorem abs_sub_lt_of_between {v a b c : ℚ} (hab : a < b) (hbc : b < c)
    (h : |v - a| = |v - c|) : |v - b| < |v - a| := by
  rcases abs_eq_abs.mp h with heq | heq
  · linarith
  · have hleft : |v - a| = (c - a) / 2 := by
      rw [abs_of_nonneg (by linarith)]
      linarith
    rw [hleft, abs_lt]
    constructor <;> linarith

theorem rank_lt_finiteRanks {x : Binary64} (h : x.isFinite = true) : x.rank < finiteRanks := by
  have hexponent : x.exponent.val < 2047 := of_decide_eq_true h
  have hfraction := x.fraction.isLt
  unfold rank finiteRanks
  omega

theorem units_eq_of_value_eq {x y : Binary64} (h : y.value = x.value) : y.units = x.units := by
  have hunit : (0 : ℚ) < 2 ^ 1074 := by positivity
  have hsizes := congrArg abs h
  have hx : (0 : ℚ) ≤ x.units := Nat.cast_nonneg _
  have hy : (0 : ℚ) ≤ y.units := Nat.cast_nonneg _
  rw [value, value, abs_signFactor_mul, abs_signFactor_mul, abs_div, abs_div, abs_of_nonneg hx,
    abs_of_nonneg hy, abs_of_pos hunit, div_left_inj' hunit.ne'] at hsizes
  exact_mod_cast hsizes

/-- Of two doubles of one sign that are equally near and have even significands the second one
does not come after the first: there would be a nearer one between them. -/
theorem IsNearest.rank_le {x y : Binary64} {q : ℚ} (hx : x.IsNearest q) (hy : y.IsNearest q)
    (hsign : x.negative = y.negative) : y.rank ≤ x.rank := by
  by_contra hlt
  have hunit : (0 : ℚ) < 2 ^ 1074 := by positivity
  have hequal : |q - x.value| = |q - y.value| :=
    le_antisymm (hx.le y hy.isFinite) (hy.le x hx.isFinite)
  have hvalue : y.value ≠ x.value := fun h =>
    hlt (rank_le_of_units_le (units_eq_of_value_eq h).le)
  -- ranks of one parity are two apart, so there is a double between
  have hgap : x.rank + 1 < y.rank := by
    have hxeven := (hx.even y hy.isFinite hequal).resolve_left hvalue
    have hyeven := (hy.even x hx.isFinite hequal.symm).resolve_left hvalue.symm
    unfold rank at hlt ⊢
    omega
  have hbetween : x.rank + 1 < finiteRanks := hgap.trans (rank_lt_finiteRanks hy.isFinite)
  obtain ⟨z, hz, hzsign, hzrank⟩ := exists_isFinite_of_rank x.negative hbetween
  have hxz : (x.units : ℚ) < z.units := by
    rw [Nat.cast_lt]
    by_contra h
    have := rank_le_of_units_le (Nat.not_lt.mp h)
    omega
  have hzy : (z.units : ℚ) < y.units := by
    rw [Nat.cast_lt]
    by_contra h
    have := rank_le_of_units_le (Nat.not_lt.mp h)
    omega
  have hle := hx.le z hz
  rw [abs_sub_value_eq, abs_sub_value_eq, ← hsign, div_left_inj' hunit.ne'] at hequal
  rw [abs_sub_value_eq, abs_sub_value_eq, hzsign, div_le_div_iff_of_pos_right hunit] at hle
  exact absurd hle (not_le.mpr (abs_sub_lt_of_between hxz hzy hequal))

/-- **There is one nearest double** of either sign. -/
theorem IsNearest.unique {x y : Binary64} {q : ℚ} (hx : x.IsNearest q) (hy : y.IsNearest q)
    (hsign : x.negative = y.negative) : x = y := by
  have hrank : x.rank = y.rank :=
    Nat.le_antisymm (hy.rank_le hx hsign.symm) (hx.rank_le hy hsign)
  rw [← ofRank_rank hx.isFinite, ← ofRank_rank hy.isFinite, hsign, hrank]

/-- The double that a number and a sign are rounded to, if the number is not too large. The
sign counts for zero too. -/
structure IsRoundingOf (x : Binary64) (negative : Bool) (q : ℚ) : Prop where
  lt_overflow : |q| < overflow
  negative_eq : x.negative = negative
  isNearest : x.IsNearest q

end Binary64

/-! ## Decimal numbers -/

namespace Decimal

def value (d : Decimal) : ℚ :=
  Binary64.signFactor d.negative * (d.coefficient * 10 ^ d.exponent)

theorem size_eq (d : Decimal) :
    (d.coefficient * 10 ^ d.exponent : ℚ) =
      (d.coefficient * 10 ^ d.exponent.toNat : Nat) / (10 ^ (-d.exponent).toNat : Nat) := by
  push_cast
  rw [mul_div_assoc]
  congr 1
  rcases le_total 0 d.exponent with h | h
  · obtain ⟨k, hk⟩ := Int.eq_ofNat_of_zero_le h
    rw [hk, Int.toNat_natCast, Int.toNat_of_nonpos (by omega), pow_zero, div_one]
    exact zpow_natCast 10 k
  · obtain ⟨k, hk⟩ := Int.eq_ofNat_of_zero_le (Int.neg_nonneg_of_nonpos h)
    rw [hk, Int.toNat_natCast, Int.toNat_of_nonpos h, pow_zero, one_div,
      show d.exponent = -(k : Int) by omega]
    exact zpow_neg (10 : ℚ) k

theorem exactRank_lt_iff (d : Decimal) :
    d.exactRank < Binary64.finiteRanks ↔ |d.value| < Binary64.overflow := by
  have hpositive : 0 < 10 ^ (-d.exponent).toNat := Nat.pow_pos (by decide)
  rw [exactRank, Binary64.nearestRank_lt_iff _ hpositive, ← size_eq, value,
    Binary64.abs_signFactor_mul, abs_of_nonneg]
  exact mul_nonneg (Nat.cast_nonneg _) (zpow_nonneg (by norm_num) _)

theorem toBinary64?_ne_none_iff (d : Decimal) :
    d.toBinary64? ≠ none ↔ |d.value| < Binary64.overflow := by
  rw [toBinary64?_eq, Binary64.finite?, ← exactRank_lt_iff]
  split_ifs with h
  · exact iff_of_true (Option.some_ne_none _) h
  · exact iff_of_false (fun hne => hne rfl) h

/-- **A decimal number is rounded correctly**, whatever its size. -/
theorem toBinary64?_eq_some_iff {d : Decimal} {x : Binary64} :
    d.toBinary64? = some x ↔ x.IsRoundingOf d.negative d.value := by
  have hpositive : 0 < 10 ^ (-d.exponent).toNat := Nat.pow_pos (by decide)
  have hnearest : d.exactRank < Binary64.finiteRanks →
      (Binary64.ofRank d.negative d.exactRank).IsNearest d.value := by
    intro h
    rw [value, size_eq]
    exact Binary64.isNearest_ofRank d.negative _ hpositive h
  rw [toBinary64?_eq, Binary64.finite?]
  constructor
  · intro h
    split_ifs at h with hfinite
    cases h
    exact ⟨d.exactRank_lt_iff.mp hfinite, rfl, hnearest hfinite⟩
  · rintro ⟨hrange, hsign, hx⟩
    have hfinite := d.exactRank_lt_iff.mpr hrange
    rw [if_pos hfinite, (hnearest hfinite).unique hx hsign.symm]

end Decimal

end RadarProfile
