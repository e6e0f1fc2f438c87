import Mathlib.Algebra.Order.Ring.Nat
import Mathlib.Tactic.Ring
import RadarProfile.Number.Decimal

set_option autoImplicit false

/-! # Rounding to a double

The nearest rank keeps the order of quotients (`nearestRank_mono`), so it depends on their
value alone (`nearestRank_congr`), and a quotient that is a double exactly is rounded to it
(`nearestRank_eq_rank`). A decimal number is rounded in the same way whatever its size: the
sizes that are decided without forming the power of ten come out as the power of ten would
make them (`toBinary64?_eq`). -/

namespace RadarProfile

/-! ## The nearest whole number -/

theorem roundHalfEven_scale (num den : Nat) {c : Nat} (hc : 0 < c) :
    roundHalfEven (num * c) (den * c) = roundHalfEven num den := by
  have hdouble : 2 * (num % den * c) = 2 * (num % den) * c := (Nat.mul_assoc _ _ _).symm
  unfold roundHalfEven
  simp only [Nat.mul_div_mul_right _ _ hc, Nat.mul_mod_mul_right, hdouble,
    Nat.mul_lt_mul_right hc]

theorem roundHalfEven_mul (k : Nat) {den : Nat} (hden : 0 < den) :
    roundHalfEven (k * den) den = k := by
  unfold roundHalfEven
  simp only [Nat.mul_div_cancel _ hden, Nat.mul_mod_left, Nat.mul_zero, hden, if_true]

theorem roundHalfEven_eq_zero {num den : Nat} (h : 2 * num < den) :
    roundHalfEven num den = 0 := by
  have hlt : num < den := by omega
  unfold roundHalfEven
  simp only [Nat.mod_eq_of_lt hlt, h, if_true, Nat.div_eq_of_lt hlt]

/-- A quotient is rounded to one of the two whole numbers next to it. -/
theorem roundHalfEven_bounds (num den : Nat) :
    num / den ≤ roundHalfEven num den ∧ roundHalfEven num den ≤ num / den + 1 := by
  unfold roundHalfEven
  dsimp only
  constructor
  · split_ifs <;> omega
  · split_ifs <;> omega

theorem roundHalfEven_mono {num num' : Nat} (h : num ≤ num') (den : Nat) :
    roundHalfEven num den ≤ roundHalfEven num' den := by
  have hquotient : num / den ≤ num' / den := Nat.div_le_div_right h
  rcases Nat.lt_or_eq_of_le hquotient with hlt | heq
  · calc roundHalfEven num den ≤ num / den + 1 := (roundHalfEven_bounds num den).2
      _ ≤ num' / den := hlt
      _ ≤ roundHalfEven num' den := (roundHalfEven_bounds num' den).1
  · -- between the same two whole numbers the remainders decide
    have hremainder : num % den ≤ num' % den := by
      have hnum := Nat.div_add_mod num den
      have hnum' := Nat.div_add_mod num' den
      rw [heq] at hnum
      omega
    unfold roundHalfEven
    rw [heq]
    dsimp only
    split_ifs <;> omega

namespace Binary64

/-! ## The nearest rank

All of this is about a quotient that counts units of `2^(-1074)`. In the rank of a quotient
the unit comes in only as a factor of the numerator. -/

def unitsRank (num den : Nat) : Nat :=
  let dropped := (num / den).log2 + 1 - 53
  dropped * 4503599627370496 + roundHalfEven num (den * 2 ^ dropped)

theorem nearestRank_eq_unitsRank (num den : Nat) :
    nearestRank num den = unitsRank (num * Nat.pow 2 1074) den := rfl

theorem unitsRank_scale (num den : Nat) {c : Nat} (hc : 0 < c) :
    unitsRank (num * c) (den * c) = unitsRank num den := by
  unfold unitsRank
  simp only [Nat.mul_div_mul_right _ _ hc, Nat.mul_right_comm den c,
    roundHalfEven_scale _ _ hc]

/-- What is left when the bits beyond the significand are dropped fits the significand, or is
the next power of two. -/
theorem significand_le {num den dropped : Nat} (h : (num / den).log2 + 1 - 53 = dropped) :
    roundHalfEven num (den * 2 ^ dropped) ≤ 9007199254740992 := by
  have hbits : num / den < 2 ^ (53 + dropped) := by
    apply Nat.lt_of_lt_of_le Nat.lt_log2_self
    exact Nat.pow_le_pow_right (by decide) (by omega)
  have hsignificand : num / (den * 2 ^ dropped) < 2 ^ 53 := by
    rw [← Nat.div_div_eq_div_mul]
    apply Nat.div_lt_of_lt_mul
    rw [← Nat.pow_add, Nat.add_comm]
    exact hbits
  exact (roundHalfEven_bounds num _).2.trans hsignificand

/-- A quotient of which bits are dropped has all others. -/
theorem two_pow_le_of_dropped {num den dropped : Nat} (h : (num / den).log2 + 1 - 53 = dropped)
    (hdropped : dropped ≠ 0) : 2 ^ (52 + dropped) ≤ num / den := by
  have hnonzero : num / den ≠ 0 := by
    intro hzero
    rw [hzero, Nat.log2_zero] at h
    omega
  exact (Nat.pow_le_pow_right (by decide) (by omega)).trans (Nat.log2_self_le hnonzero)

/-- What is left when bits are dropped has a leading bit. -/
theorem le_significand {num den dropped : Nat} (h : (num / den).log2 + 1 - 53 = dropped)
    (hdropped : dropped ≠ 0) : 4503599627370496 ≤ roundHalfEven num (den * 2 ^ dropped) := by
  have hsignificand : 2 ^ 52 ≤ num / (den * 2 ^ dropped) := by
    rw [← Nat.div_div_eq_div_mul, Nat.le_div_iff_mul_le (Nat.two_pow_pos _), ← Nat.pow_add]
    exact two_pow_le_of_dropped h hdropped
  exact Nat.le_trans hsignificand (roundHalfEven_bounds num _).1

theorem unitsRank_mono {num num' : Nat} (h : num ≤ num') (den : Nat) :
    unitsRank num den ≤ unitsRank num' den := by
  have hwhole : num / den ≤ num' / den := Nat.div_le_div_right h
  have hlog : (num / den).log2 ≤ (num' / den).log2 := by
    by_cases hzero : num / den = 0
    · rw [hzero, Nat.log2_zero]
      exact Nat.zero_le _
    · have hzero' : num' / den ≠ 0 :=
        Nat.ne_of_gt (Nat.lt_of_lt_of_le (Nat.pos_of_ne_zero hzero) hwhole)
      exact (Nat.le_log2 hzero').mpr ((Nat.log2_self_le hzero).trans hwhole)
  unfold unitsRank
  dsimp only
  generalize hdropped : (num / den).log2 + 1 - 53 = dropped
  generalize hdropped' : (num' / den).log2 + 1 - 53 = dropped'
  have hle : dropped ≤ dropped' := by omega
  rcases Nat.lt_or_eq_of_le hle with hlt | rfl
  · -- the carry of the smaller quotient reaches no further than the next power of two
    have hcarry := significand_le hdropped
    have hleading := le_significand hdropped' (by omega)
    omega
  · exact Nat.add_le_add_left (roundHalfEven_mono h _) _

/-- **The nearest rank keeps the order of quotients.** -/
theorem nearestRank_mono {num den num' den' : Nat} (hden : 0 < den) (hden' : 0 < den')
    (h : num * den' ≤ num' * den) : nearestRank num den ≤ nearestRank num' den' := by
  simp only [nearestRank_eq_unitsRank]
  generalize Nat.pow 2 1074 = unit
  have hscaled : num * unit * den' ≤ num' * unit * den := by
    rw [Nat.mul_right_comm, Nat.mul_right_comm num']
    exact Nat.mul_le_mul_right unit h
  calc unitsRank (num * unit) den
      = unitsRank (num * unit * den') (den * den') := (unitsRank_scale _ _ hden').symm
    _ ≤ unitsRank (num' * unit * den) (den * den') := unitsRank_mono hscaled _
    _ = unitsRank (num' * unit * den) (den' * den) := by rw [Nat.mul_comm den den']
    _ = unitsRank (num' * unit) den' := unitsRank_scale _ _ hden

/-- **The nearest rank depends on the value of the quotient alone.** -/
theorem nearestRank_congr {num den num' den' : Nat} (hden : 0 < den) (hden' : 0 < den')
    (h : num * den' = num' * den) : nearestRank num den = nearestRank num' den' :=
  Nat.le_antisymm (nearestRank_mono hden hden' (Nat.le_of_eq h))
    (nearestRank_mono hden' hden (Nat.le_of_eq h.symm))

theorem unitsRank_eq_zero {num den : Nat} (h : 2 * num < den) : unitsRank num den = 0 := by
  have hwhole : num / den = 0 := Nat.div_eq_of_lt (by omega)
  unfold unitsRank
  rw [hwhole]
  show 0 * 4503599627370496 + roundHalfEven num (den * 1) = 0
  rw [Nat.mul_one, Nat.zero_mul, Nat.zero_add, roundHalfEven_eq_zero h]

/-- What has too many units is rounded beyond the finite doubles. -/
theorem finiteRanks_le_unitsRank {num den : Nat} (h : 2099 ≤ (num / den).log2) :
    finiteRanks ≤ unitsRank num den := by
  have hdropped : 2047 ≤ (num / den).log2 + 1 - 53 := by omega
  calc finiteRanks
      ≤ ((num / den).log2 + 1 - 53) * 4503599627370496 := Nat.mul_le_mul_right _ hdropped
    _ ≤ unitsRank num den := Nat.le_add_right _ _

/-! ## Exact quotients -/

/-- The bits of the units beyond the significand are as many as the exponent says. -/
theorem log2_units {x : Binary64} (h : x.exponent.val ≠ 0) :
    x.units.log2 = 52 + (x.exponent.val - 1) := by
  have hfraction := x.fraction.isLt
  have hpow : 0 < 2 ^ (x.exponent.val - 1) := Nat.two_pow_pos _
  have hunits : x.units = (4503599627370496 + x.fraction.val) * 2 ^ (x.exponent.val - 1) :=
    if_neg h
  have hpositive : x.units ≠ 0 := by
    rw [hunits]
    exact Nat.ne_of_gt (Nat.mul_pos (by omega) hpow)
  rw [Nat.log2_eq_iff hpositive, hunits]
  constructor
  · calc 2 ^ (52 + (x.exponent.val - 1))
        = 4503599627370496 * 2 ^ (x.exponent.val - 1) := Nat.pow_add 2 52 _
      _ ≤ (4503599627370496 + x.fraction.val) * 2 ^ (x.exponent.val - 1) :=
          Nat.mul_le_mul_right _ (by omega)
  · calc (4503599627370496 + x.fraction.val) * 2 ^ (x.exponent.val - 1)
        < 9007199254740992 * 2 ^ (x.exponent.val - 1) :=
          Nat.mul_lt_mul_of_pos_right (by omega) hpow
      _ = 2 ^ (52 + (x.exponent.val - 1) + 1) := by
          rw [show 52 + (x.exponent.val - 1) + 1 = 53 + (x.exponent.val - 1) by omega]
          exact (Nat.pow_add 2 53 _).symm

theorem unitsRank_units (x : Binary64) {den : Nat} (hden : 0 < den) :
    unitsRank (x.units * den) den = x.rank := by
  have hfraction := x.fraction.isLt
  unfold unitsRank
  simp only [Nat.mul_div_cancel _ hden]
  by_cases hexponent : x.exponent.val = 0
  · -- small doubles are their own number of units, and no bit is dropped
    have hunits : x.units = x.fraction.val := if_pos hexponent
    have hlog : x.units.log2 + 1 - 53 = 0 := by
      have : x.units.log2 ≤ 52 := by
        by_cases hzero : x.units = 0
        · rw [hzero]
          decide
        · have := (Nat.log2_lt (k := 53) hzero).mpr (by omega)
          omega
      omega
    rw [hlog]
    show 0 * 4503599627370496 + roundHalfEven (x.units * den) (den * 1) = x.rank
    rw [Nat.mul_one, roundHalfEven_mul _ hden, rank, hexponent, hunits]
  · -- the bits that are dropped are the zeros behind the significand
    have hlog : x.units.log2 + 1 - 53 = x.exponent.val - 1 := by
      rw [log2_units hexponent]
      omega
    have hpow : 0 < den * 2 ^ (x.exponent.val - 1) := Nat.mul_pos hden (Nat.two_pow_pos _)
    have hsplit : x.units * den = (4503599627370496 + x.fraction.val) *
        (den * 2 ^ (x.exponent.val - 1)) := by
      rw [show x.units = (4503599627370496 + x.fraction.val) * 2 ^ (x.exponent.val - 1) from
        if_neg hexponent, Nat.mul_assoc, Nat.mul_comm den]
    rw [hlog, hsplit, roundHalfEven_mul _ hpow, rank]
    omega

/-- **A quotient that is a finite double exactly is rounded to it.** -/
theorem nearestRank_eq_rank (x : Binary64) {num den : Nat} (hden : 0 < den)
    (h : num * Nat.pow 2 1074 = x.units * den) : nearestRank num den = x.rank := by
  rw [nearestRank_eq_unitsRank, h, unitsRank_units x hden]

/-! ## From a rank to the double -/

theorem ofRank_rank {x : Binary64} (h : x.isFinite = true) : ofRank x.negative x.rank = x := by
  have hexponent : x.exponent.val < 2047 := of_decide_eq_true h
  have hfraction := x.fraction.isLt
  rcases x with ⟨negative, exponent, fraction⟩
  simp only [ofRank, rank, mk.injEq, true_and]
  constructor
  · apply Fin.ext
    simp only [Fin.ofNat]
    omega
  · apply Fin.ext
    simp only [Fin.ofNat]
    omega

theorem finite?_rank {x : Binary64} (h : x.isFinite = true) :
    finite? x.negative x.rank = some x := by
  have hexponent : x.exponent.val < 2047 := of_decide_eq_true h
  have hfraction := x.fraction.isLt
  have hfinite : x.rank < finiteRanks := by
    unfold rank finiteRanks
    omega
  rw [finite?, if_pos hfinite, ofRank_rank h]

end Binary64

namespace Decimal

/-! ## Decimal numbers of any size -/

/-- The rank of the double nearest to the size of the number, with the power of ten formed
whatever the exponent is. -/
def exactRank (d : Decimal) : Nat :=
  Binary64.nearestRank (d.coefficient * 10 ^ d.exponent.toNat) (10 ^ (-d.exponent).toNat)

theorem two_pow_le_ten_pow (k : Nat) : 2 ^ (3 * k) ≤ 10 ^ k := by
  calc 2 ^ (3 * k) = 8 ^ k := Nat.pow_mul 2 3 k
    _ ≤ 10 ^ k := Nat.pow_le_pow_left (by decide) k

theorem exactRank_of_isTiny {d : Decimal} (h : d.isTiny = true) : d.exactRank = 0 := by
  rcases d with ⟨negative, coefficient, exponent⟩
  simp only [isTiny, Bool.or_eq_true, beq_iff_eq, decide_eq_true_eq] at h
  rw [exactRank, Binary64.nearestRank_eq_unitsRank]
  apply Binary64.unitsRank_eq_zero
  generalize hplaces : 1074 = places
  rcases h with rfl | h
  · rw [Nat.zero_mul, Nat.zero_mul]
    exact Nat.pow_pos (by decide)
  · obtain ⟨k, rfl⟩ : ∃ k : Nat, exponent = -(k : Int) := ⟨(-exponent).toNat, by omega⟩
    have hzero : (-(k : Int)).toNat = 0 := by omega
    have hk : (- -(k : Int)).toNat = k := by omega
    have hbits : coefficient.log2 + 1 + (places + 1) ≤ 3 * k := by omega
    have hunit : 0 < 2 ^ (places + 1) := Nat.two_pow_pos _
    dsimp only
    rw [hzero, hk, Nat.pow_zero, Nat.mul_one]
    -- the coefficient has one bit more than its logarithm, and doubling gives one more
    calc 2 * (coefficient * Nat.pow 2 places)
        = coefficient * 2 ^ (places + 1) := by
          rw [Nat.pow_succ, ← Nat.mul_assoc coefficient, Nat.mul_comm 2]
          rfl
      _ < 2 ^ (coefficient.log2 + 1) * 2 ^ (places + 1) :=
          Nat.mul_lt_mul_of_pos_right Nat.lt_log2_self hunit
      _ = 2 ^ (coefficient.log2 + 1 + (places + 1)) := (Nat.pow_add 2 _ _).symm
      _ ≤ 2 ^ (3 * k) := Nat.pow_le_pow_right (by decide) hbits
      _ ≤ 10 ^ k := two_pow_le_ten_pow k

theorem finiteRanks_le_exactRank_of_isVast {d : Decimal} (h : d.isVast = true) :
    Binary64.finiteRanks ≤ d.exactRank := by
  rcases d with ⟨negative, coefficient, exponent⟩
  simp only [isVast, Bool.and_eq_true, bne_iff_ne, ne_eq, decide_eq_true_eq] at h
  obtain ⟨hcoefficient, hexponent⟩ := h
  rw [exactRank, Binary64.nearestRank_eq_unitsRank]
  apply Binary64.finiteRanks_le_unitsRank
  generalize hplaces : 1074 = places
  obtain ⟨k, rfl⟩ : ∃ k : Nat, exponent = (k : Int) := ⟨exponent.toNat, by omega⟩
  have hzero : (-(k : Int)).toNat = 0 := by omega
  have hpositive : 0 < coefficient * 10 ^ k * Nat.pow 2 places :=
    Nat.mul_pos (Nat.mul_pos (by omega) (Nat.pow_pos (by decide))) (Nat.two_pow_pos places)
  dsimp only
  rw [Int.toNat_natCast, hzero, Nat.pow_zero, Nat.div_one]
  apply (Nat.le_log2 (Nat.ne_of_gt hpositive)).mpr
  calc 2 ^ 2099 ≤ 2 ^ (3 * k + places) := Nat.pow_le_pow_right (by decide) (by omega)
    _ = 2 ^ (3 * k) * 2 ^ places := Nat.pow_add 2 _ _
    _ ≤ coefficient * 10 ^ k * 2 ^ places := by
        apply Nat.mul_le_mul_right
        calc 2 ^ (3 * k) ≤ 10 ^ k := two_pow_le_ten_pow k
          _ ≤ coefficient * 10 ^ k := Nat.le_mul_of_pos_left _ (by omega)

/-- The rank is the exact one, unless the number is vast; then both are too large. -/
theorem rank_eq_exactRank {d : Decimal} (h : d.isVast = false) : d.rank = d.exactRank := by
  unfold rank
  by_cases htiny : d.isTiny = true
  · rw [if_pos htiny, exactRank_of_isTiny htiny]
  · rw [if_neg htiny, h, if_neg Bool.false_ne_true]
    by_cases hexponent : 0 ≤ d.exponent
    · have hzero : (-d.exponent).toNat = 0 := by omega
      rw [if_pos hexponent, exactRank, hzero]
      rfl
    · have hzero : d.exponent.toNat = 0 := by omega
      rw [if_neg hexponent, exactRank, hzero, Nat.pow_zero, Nat.mul_one]
      rfl

/-- **Every decimal number is rounded exactly**, whatever its size. -/
theorem toBinary64?_eq (d : Decimal) :
    d.toBinary64? = Binary64.finite? d.negative d.exactRank := by
  unfold toBinary64?
  cases hvast : d.isVast with
  | false => rw [rank_eq_exactRank hvast]
  | true =>
      have hlarge := finiteRanks_le_exactRank_of_isVast hvast
      have hnotTiny : d.isTiny = false := by
        cases htiny : d.isTiny with
        | false => rfl
        | true =>
            rw [exactRank_of_isTiny htiny] at hlarge
            exact absurd hlarge (by decide)
      have hrank : d.rank = Binary64.finiteRanks := by
        simp only [rank, hnotTiny, hvast, Bool.false_eq_true, if_false, if_true]
      rw [hrank, Binary64.finite?, Binary64.finite?, if_neg (Nat.lt_irrefl _),
        if_neg (Nat.not_lt.mpr hlarge)]

end Decimal

end RadarProfile
