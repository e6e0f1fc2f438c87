import RadarProfile.Number.Layout
import RadarProfile.Proofs.Literals
import RadarProfile.Proofs.Rounding

set_option autoImplicit false

/-! # The shortest digits

Every point that the search returns was tried, and the point it ends with is the double
itself: so the shortest digits read back as the double they are for (`readsBack_ofBinary64`).
Because rounding keeps the order, they lie on the same side of a power of ten as the double,
as long as that power is its own shortest form (`rank_le_iff_lt_position`). -/

namespace RadarProfile

namespace Shortest

/-! ## The search -/

theorem nearer_eq (tie : TieRule) (below excess gap : Nat) :
    nearer tie below excess gap = below ∨ nearer tie below excess gap = below + 1 := by
  unfold nearer
  by_cases hbelow : 2 * excess < gap
  · rw [if_pos hbelow]
    exact Or.inl rfl
  · rw [if_neg hbelow]
    by_cases habove : gap < 2 * excess
    · rw [if_pos habove]
      exact Or.inr rfl
    · rw [if_neg habove]
      cases tie with
      | up => exact Or.inr rfl
      | even =>
          dsimp only
          by_cases heven : below % 2 = 0
          · rw [if_pos heven]
            exact Or.inl rfl
          · rw [if_neg heven]
            exact Or.inr rfl

/-- One grid further, the search goes on, or it ends at one of the two points next to the
value, which passes the test. -/
theorem search_succ (test : Point → Bool) (tie : TieRule) (value grid : Nat) :
    search test tie value (grid + 1) = search test tie value grid ∨
      ∃ digits, search test tie value (grid + 1) = ⟨digits, grid + 1⟩ ∧
        test ⟨digits, grid + 1⟩ = true ∧ digits ≤ value + 1 := by
  have hbelow : value / Nat.pow 10 (grid + 1) ≤ value := Nat.div_le_self _ _
  rw [search]
  generalize value / Nat.pow 10 (grid + 1) = below at hbelow
  cases hfirst : test ⟨below, grid + 1⟩ with
  | false =>
      cases hsecond : test ⟨below + 1, grid + 1⟩ with
      | false => exact Or.inl rfl
      | true => exact Or.inr ⟨below + 1, rfl, hsecond, Nat.succ_le_succ hbelow⟩
  | true =>
      cases hsecond : test ⟨below + 1, grid + 1⟩ with
      | false => exact Or.inr ⟨below, rfl, hfirst, Nat.le_succ_of_le hbelow⟩
      | true =>
          refine Or.inr ⟨_, rfl, ?_⟩
          rcases nearer_eq tie below (value % Nat.pow 10 (grid + 1)) (Nat.pow 10 (grid + 1))
            with hnearer | hnearer
          · rw [hnearer]
            exact ⟨hfirst, Nat.le_succ_of_le hbelow⟩
          · rw [hnearer]
            exact ⟨hsecond, Nat.succ_le_succ hbelow⟩

/-- **A search ends at a point that passes the test**, if the value itself does. -/
theorem test_search {test : Point → Bool} (tie : TieRule) {value : Nat}
    (h : test ⟨value, 0⟩ = true) (grid : Nat) : test (search test tie value grid) = true := by
  induction grid with
  | zero => exact h
  | succ grid ih =>
      rcases search_succ test tie value grid with hnext | ⟨digits, hpoint, hpasses, _⟩
      · rw [hnext]
        exact ih
      · rw [hpoint]
        exact hpasses

/-- A search does not go beyond its first grid, nor to more digits than the value has. -/
theorem search_le (test : Point → Bool) (tie : TieRule) (value grid : Nat) :
    (search test tie value grid).grid ≤ grid ∧
      (search test tie value grid).digits ≤ value + 1 := by
  induction grid with
  | zero => exact ⟨Nat.le_refl 0, Nat.le_succ value⟩
  | succ grid ih =>
      rcases search_succ test tie value grid with hnext | ⟨digits, hpoint, _, hle⟩
      · rw [hnext]
        exact ⟨Nat.le_succ_of_le ih.1, ih.2⟩
      · rw [hpoint]
        exact ⟨Nat.le_refl _, hle⟩

theorem ten_pow_pos (k : Nat) : 0 < Nat.pow 10 k := Nat.pow_pos (by decide)

/-- **The shortest digits read back.** -/
theorem readsBack_ofBinary64 (tie : TieRule) (x : Binary64) :
    Point.readsBack x.rank (ofBinary64 tie x) = true := by
  have hunits : ∀ k, x.units * Nat.pow 5 k * Nat.pow 10 0 * Nat.pow 2 k =
      x.units * Nat.pow 10 k := by
    intro k
    calc x.units * 5 ^ k * 10 ^ 0 * 2 ^ k = x.units * (5 ^ k * 2 ^ k) := by ring
      _ = x.units * 10 ^ k := by rw [← Nat.mul_pow]
  apply test_search
  rw [Point.readsBack, beq_iff_eq]
  exact Binary64.nearestRank_eq_rank x (ten_pow_pos 1074) (hunits 1074)

theorem digits_pos {rank : Nat} {p : Point} (h : Point.readsBack rank p = true)
    (hrank : rank ≠ 0) : 0 < p.digits := by
  rcases Nat.eq_zero_or_pos p.digits with hzero | hpos
  · rw [Point.readsBack, beq_iff_eq, hzero, Nat.zero_mul,
      Binary64.nearestRank_eq_unitsRank, Nat.zero_mul] at h
    rw [Binary64.unitsRank_eq_zero (ten_pow_pos 1074)] at h
    exact absurd h.symm hrank
  · exact hpos

/-- The exponent bounds the units. -/
theorem units_lt (x : Binary64) : x.units < 2 ^ (53 + x.exponent.val) := by
  have hfraction := x.fraction.isLt
  have hpow : 0 < 2 ^ x.exponent.val := Nat.two_pow_pos _
  rw [Nat.pow_add]
  unfold Binary64.units
  by_cases hzero : x.exponent.val = 0
  · rw [if_pos hzero]
    exact Nat.lt_of_lt_of_le (by omega) (Nat.le_mul_of_pos_right _ hpow)
  · rw [if_neg hzero]
    have hle : Nat.pow 2 (x.exponent.val - 1) ≤ 2 ^ x.exponent.val :=
      Nat.pow_le_pow_right (by decide) (by omega)
    exact Nat.mul_lt_mul_of_lt_of_le (by omega) hle hpow

theorem decimalUnits_lt (x : Binary64) :
    decimalUnits x + 1 < 10 ^ (53 + x.exponent.val + 1074 + 1) := by
  have hunits : x.units < 10 ^ (53 + x.exponent.val) :=
    Nat.lt_of_lt_of_le (units_lt x) (Nat.pow_le_pow_left (by decide) _)
  have hproduct : ∀ k, x.units * Nat.pow 5 k < 10 ^ (53 + x.exponent.val + k) := by
    intro k
    rw [Nat.pow_add]
    exact Nat.mul_lt_mul_of_lt_of_le hunits (Nat.pow_le_pow_left (by decide) k)
      (Nat.pow_pos (by decide))
  have hvalue : decimalUnits x < 10 ^ (53 + x.exponent.val + 1074) := hproduct 1074
  rw [Nat.pow_succ]
  omega

theorem length_ofNat_le {n k : Nat} (h : n < 10 ^ (k + 1)) : (Text.ofNat n).length ≤ k + 1 :=
  (Nat.length_toDigits_le_iff (by decide) (Nat.succ_pos k)).mpr h

/-- The bounds of the grid and of the digits, where the value has so many digits. -/
theorem ofBinary64_le (tie : TieRule) {x : Binary64} {k : Nat}
    (h : decimalUnits x + 1 < 10 ^ (k + 1)) :
    (ofBinary64 tie x).grid ≤ 1074 + (k + 1) ∧
      (Text.ofNat (ofBinary64 tie x).digits).length ≤ k + 1 := by
  have hwhole : decimalUnits x / Nat.pow 10 1074 ≤ decimalUnits x := Nat.div_le_self _ _
  obtain ⟨hgrid, hdigits⟩ := search_le (Point.readsBack x.rank) tie (decimalUnits x)
    (1074 + (Nat.toDigits 10 (decimalUnits x / Nat.pow 10 1074)).length)
  have hcoarse := length_ofNat_le (Nat.lt_of_le_of_lt hwhole (Nat.lt_of_succ_lt h))
  exact ⟨hgrid.trans (Nat.add_le_add_left hcoarse _),
    length_ofNat_le (Nat.lt_of_le_of_lt hdigits h)⟩

/-- The grid and the digits of any double are far below the ceiling of exponents. -/
theorem ofBinary64_lt (tie : TieRule) (x : Binary64) :
    (ofBinary64 tie x).grid < 10000 ∧
      (Text.ofNat (ofBinary64 tie x).digits).length < 10000 := by
  have hexponent := x.exponent.isLt
  obtain ⟨hgrid, hdigits⟩ := ofBinary64_le tie (decimalUnits_lt x)
  exact ⟨by omega, by omega⟩

/-! ## Powers of ten -/

/-- How a point compares with a power of ten shows in its grid and the number of its digits. -/
theorem lt_position_iff {p : Point} (hpos : 0 < p.digits) (k : Nat) :
    k < p.grid + (Text.ofNat p.digits).length ↔ 10 ^ k ≤ p.digits * 10 ^ p.grid := by
  have hlength : 0 < (Text.ofNat p.digits).length := Nat.length_toDigits_pos
  rcases Nat.lt_or_ge k p.grid with hlt | hge
  · have hle : 10 ^ k ≤ p.digits * 10 ^ p.grid :=
      calc 10 ^ k ≤ 10 ^ p.grid := Nat.pow_le_pow_right (by decide) (Nat.le_of_lt hlt)
        _ ≤ p.digits * 10 ^ p.grid := Nat.le_mul_of_pos_left _ hpos
    exact iff_of_true (by omega) hle
  · obtain ⟨j, rfl⟩ := Nat.exists_eq_add_of_le hge
    have hdigits : j < (Text.ofNat p.digits).length ↔ 10 ^ j ≤ p.digits := by
      rcases Nat.eq_zero_or_pos j with rfl | hj
      · exact iff_of_true hlength hpos
      · calc j < (Text.ofNat p.digits).length
            ↔ ¬ (Text.ofNat p.digits).length ≤ j := Nat.not_le.symm
          _ ↔ ¬ p.digits < 10 ^ j := not_congr (Nat.length_toDigits_le_iff (by decide) hj)
          _ ↔ 10 ^ j ≤ p.digits := Nat.not_lt
    calc p.grid + j < p.grid + (Text.ofNat p.digits).length
        ↔ j < (Text.ofNat p.digits).length := Nat.add_lt_add_iff_left
      _ ↔ 10 ^ j ≤ p.digits := hdigits
      _ ↔ 10 ^ (p.grid + j) ≤ p.digits * 10 ^ p.grid := by
          rw [Nat.pow_add, Nat.mul_comm (10 ^ p.grid)]
          exact (Nat.mul_le_mul_right_iff (Nat.pow_pos (by decide))).symm

@[irreducible]
def powerRank (exponent : Int) : Nat := (⟨false, 1, exponent⟩ : Decimal).rank

theorem powerRank_eq {exponent : Int} {k : Nat} (hk : (k : Int) = 1074 + exponent)
    (hle : exponent ≤ 400) :
    powerRank exponent = Binary64.nearestRank (Nat.pow 10 k) (Nat.pow 10 1074) := by
  have hvast : (⟨false, 1, exponent⟩ : Decimal).isVast = false := by
    simp only [Decimal.isVast, Bool.and_eq_false_iff, decide_eq_false_iff_not]
    omega
  have hcross : ∀ places : Nat, (k : Int) = places + exponent →
      1 * 10 ^ exponent.toNat * Nat.pow 10 places = Nat.pow 10 k * 10 ^ (-exponent).toNat := by
    intro places hplaces
    have hsum : exponent.toNat + places = k + (-exponent).toNat := by omega
    calc 1 * 10 ^ exponent.toNat * 10 ^ places = 10 ^ (exponent.toNat + places) := by ring
      _ = 10 ^ k * 10 ^ (-exponent).toNat := by rw [hsum, Nat.pow_add]
  rw [powerRank, Decimal.rank_eq_exactRank hvast, Decimal.exactRank]
  exact Binary64.nearestRank_congr (Nat.pow_pos (by decide)) (ten_pow_pos 1074)
    (hcross 1074 hk)

/-- **A double has a power of ten at most as its shortest digits do**, if the power is its own
shortest form. -/
theorem powerRank_le_iff {tie : TieRule} {x : Binary64} {exponent : Int} {k : Nat}
    (hfinite : x.isFinite = true) (hk : (k : Int) = 1074 + exponent) (hle : exponent ≤ 400)
    (hshortest : ∀ negative,
      ofBinary64 tie (Binary64.ofRank negative (powerRank exponent)) = ⟨1, k⟩)
    (hpos : 0 < (ofBinary64 tie x).digits) :
    powerRank exponent ≤ x.rank ↔
      exponent < ((ofBinary64 tie x).grid : Int) - 1074 +
        (Text.ofNat (ofBinary64 tie x).digits).length := by
  have hreads := readsBack_ofBinary64 tie x
  rw [Point.readsBack, beq_iff_eq] at hreads
  have hposition : exponent < ((ofBinary64 tie x).grid : Int) - 1074 +
      (Text.ofNat (ofBinary64 tie x).digits).length ↔
        10 ^ k ≤ (ofBinary64 tie x).digits * 10 ^ (ofBinary64 tie x).grid := by
    rw [← lt_position_iff hpos]
    omega
  rw [hposition]
  constructor
  · intro hrank
    by_contra hlt
    have hlt := Nat.lt_of_not_le hlt
    -- then the double is the power, whose shortest form is not below it
    have hrank' : x.rank ≤ powerRank exponent := by
      rw [powerRank_eq hk hle, ← hreads]
      exact Binary64.nearestRank_mono (ten_pow_pos 1074) (ten_pow_pos 1074)
        (Nat.mul_le_mul_right _ (Nat.le_of_lt hlt))
    have hx : Binary64.ofRank x.negative (powerRank exponent) = x := by
      rw [← Nat.le_antisymm hrank' hrank]
      exact Binary64.ofRank_rank hfinite
    have hpoint := hshortest x.negative
    rw [hx] at hpoint
    rw [hpoint, Nat.one_mul] at hlt
    exact Nat.lt_irrefl _ hlt
  · intro hpower
    rw [powerRank_eq hk hle, ← hreads]
    exact Binary64.nearestRank_mono (ten_pow_pos 1074) (ten_pow_pos 1074)
      (Nat.mul_le_mul_right _ hpower)

end Shortest

end RadarProfile
