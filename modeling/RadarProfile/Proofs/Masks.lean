import Mathlib.Data.Finset.Card
import Mathlib.Order.Interval.Finset.Nat
import RadarProfile.Schema

set_option autoImplicit false

/-! # Bits of masks

The bits of a mask are the 64 that stand for it in two's complement. Shifting the mask to the
right brings each of them to the front (`getLsbD_ofInt`), and that of a negative mask too, since
the shift rounds down. So the count over shifted masks is the size of a set of positions
(`popcount_eq_card`), and counts obey the laws of such sets: ranges side by side add up
(`popcount_add_popcount`), a mask and its complement share a range between them
(`popcount_add_popcount_not`), and bits outside the range have no part in it
(`popcount_congr`). -/

namespace RadarProfile

namespace Mask

/-- The positions from `first` to `last` at which the mask, in two's complement of 64 bits, has
a one. -/
def positions (mask : Int) (first last : Nat) : Finset Nat :=
  (Finset.Icc first last).filter fun i => (BitVec.ofInt 64 mask).getLsbD i = true

/-- Taking a number modulo a power of two leaves the bits below that power as they are. -/
theorem emod_two_pow_shift (z : Int) {i width : Nat} (h : i < width) :
    z % 2 ^ width / 2 ^ i % 2 = z / 2 ^ i % 2 := by
  have hpow : (2 : Int) ^ width = 2 ^ i * (2 * 2 ^ (width - i - 1)) := by
    rw [← pow_succ', ← pow_add]
    congr 1
    omega
  have hne : (2 : Int) ^ i ≠ 0 := Int.pow_ne_zero (by decide)
  -- what the modulus takes away is even when it is shifted
  calc z % 2 ^ width / 2 ^ i % 2
      = (z % 2 ^ width / 2 ^ i + 2 * (2 ^ (width - i - 1) * (z / 2 ^ width))) % 2 :=
        (Int.add_mul_emod_self_left _ _ _).symm
    _ = (z % 2 ^ width + 2 ^ i * (2 * (2 ^ (width - i - 1) * (z / 2 ^ width)))) / 2 ^ i % 2 := by
        rw [Int.add_mul_ediv_left _ _ hne]
    _ = (z % 2 ^ width + 2 ^ width * (z / 2 ^ width)) / 2 ^ i % 2 := by
        rw [hpow, mul_assoc, mul_assoc]
    _ = z / 2 ^ i % 2 := by rw [Int.emod_add_mul_ediv]

/-- **A shift brings a bit of an integer to the front**, of a negative one too. -/
theorem getLsbD_ofInt (z : Int) {i width : Nat} (h : i < width) :
    (BitVec.ofInt width z).getLsbD i = ((z >>> i) % 2 == 1) := by
  have hword : ((BitVec.ofInt width z).toNat : Int) = z % 2 ^ width := by
    have hpos : (0 : Int) < 2 ^ width := Int.pow_pos (by decide)
    rw [BitVec.toNat_ofInt, Int.toNat_of_nonneg]
    · push_cast
      rfl
    · push_cast
      exact Int.emod_nonneg z hpos.ne'
  have hbit := emod_two_pow_shift z h
  rw [← hword] at hbit
  rw [← BitVec.testBit_toNat, Nat.testBit_eq_decide_div_mod_eq, Int.shiftRight_eq_div_pow,
    Bool.eq_iff_iff, decide_eq_true_iff, beq_iff_eq]
  push_cast
  rw [← hbit]
  norm_cast

/-- A position is one of the 64, in the range, and the shift to it leaves an odd number. -/
theorem mem_positions_iff {mask : Int} {first last i : Nat} :
    i ∈ positions mask first last ↔ i < 64 ∧ first ≤ i ∧ i ≤ last ∧ (mask >>> i) % 2 = 1 := by
  unfold positions
  rw [Finset.mem_filter, Finset.mem_Icc]
  constructor
  · rintro ⟨⟨hfirst, hlast⟩, hbit⟩
    have hlt : i < 64 := BitVec.lt_of_getLsbD hbit
    rw [getLsbD_ofInt mask hlt, beq_iff_eq] at hbit
    exact ⟨hlt, hfirst, hlast, hbit⟩
  · rintro ⟨hlt, hfirst, hlast, hbit⟩
    rw [getLsbD_ofInt mask hlt, beq_iff_eq]
    exact ⟨⟨hfirst, hlast⟩, hbit⟩

end Mask

/-- **Counting over shifted masks counts the positions with a one.** -/
theorem popcount_eq_card (mask : Int) (first last : Nat) :
    popcount mask first last = (Mask.positions mask first last).card := by
  have hnodup : ((List.range 64).filter fun i =>
      decide (first ≤ i) && decide (i ≤ last) && (mask >>> i) % 2 == 1).Nodup :=
    List.nodup_range.filter _
  rw [popcount, List.countP_eq_length_filter, ← List.toFinset_card_of_nodup hnodup]
  congr 1
  ext i
  simp [Mask.mem_positions_iff, and_assoc]

/-! ## Laws of the count -/

theorem popcount_le_length (mask : Int) (first last : Nat) :
    popcount mask first last ≤ last + 1 - first := by
  rw [popcount_eq_card, ← Nat.card_Icc]
  exact Finset.card_filter_le _ _

/-- **The count of a range is that of its two parts.** -/
theorem popcount_add_popcount (mask : Int) {first mid last : Nat} (hmid : first ≤ mid)
    (hlast : mid < last) :
    popcount mask first last = popcount mask first mid + popcount mask (mid + 1) last := by
  have hdisjoint : Disjoint (Mask.positions mask first mid)
      (Mask.positions mask (mid + 1) last) := by
    rw [Finset.disjoint_left]
    intro i hfront hback
    rw [Mask.mem_positions_iff] at hfront hback
    omega
  have hunion : Mask.positions mask first last =
      Mask.positions mask first mid ∪ Mask.positions mask (mid + 1) last := by
    ext i
    rw [Finset.mem_union, Mask.mem_positions_iff, Mask.mem_positions_iff,
      Mask.mem_positions_iff]
    omega
  rw [popcount_eq_card, popcount_eq_card, popcount_eq_card, hunion,
    Finset.card_union_of_disjoint hdisjoint]

theorem Mask.not_shiftRight (z : Int) (i : Nat) : ~~~z >>> i = ~~~(z >>> i) := by
  cases z with
  | ofNat n => rfl
  | negSucc n => rfl

/-- Of an integer and its complement one is odd. -/
theorem Mask.not_emod_two (z : Int) : ~~~z % 2 = 1 ↔ ¬ z % 2 = 1 := by
  have hnot : ~~~z = -z - 1 := by
    cases z with
    | ofNat n =>
        show Int.negSucc n = -(n : Int) - 1
        omega
    | negSucc n =>
        show (n : Int) = -Int.negSucc n - 1
        omega
  omega

/-- **A position has a one in a mask or in its complement.** -/
theorem popcount_add_popcount_not (mask : Int) (first last : Nat) :
    popcount mask first last + popcount (~~~mask) first last =
      ((Finset.Icc first last).filter (· < 64)).card := by
  have hones : Mask.positions mask first last =
      ((Finset.Icc first last).filter (· < 64)).filter
        fun i : Nat => (mask >>> i) % 2 = 1 := by
    ext i
    simp only [Mask.mem_positions_iff, Finset.mem_filter, Finset.mem_Icc]
    tauto
  have hzeros : Mask.positions (~~~mask) first last =
      ((Finset.Icc first last).filter (· < 64)).filter
        fun i : Nat => ¬ (mask >>> i) % 2 = 1 := by
    ext i
    simp only [Mask.mem_positions_iff, Finset.mem_filter, Finset.mem_Icc, Mask.not_shiftRight,
      Mask.not_emod_two]
    tauto
  rw [popcount_eq_card, popcount_eq_card, hones, hzeros,
    Finset.card_filter_add_card_filter_not]

/-- **Only the bits in the range count.** -/
theorem popcount_congr {mask mask' : Int} {first last : Nat}
    (h : ∀ i, first ≤ i → i ≤ last →
      (BitVec.ofInt 64 mask').getLsbD i = (BitVec.ofInt 64 mask).getLsbD i) :
    popcount mask' first last = popcount mask first last := by
  rw [popcount_eq_card, popcount_eq_card]
  congr 1
  refine Finset.filter_congr fun i hi => ?_
  obtain ⟨hfirst, hlast⟩ := Finset.mem_Icc.mp hi
  rw [h i hfirst hlast]

/-- **A count of the first bits needs no more than the residue of the mask.** -/
theorem popcount_eq_of_emod_eq {mask mask' : Int} {first last : Nat}
    (h : mask' % 2 ^ (last + 1) = mask % 2 ^ (last + 1)) :
    popcount mask' first last = popcount mask first last := by
  refine popcount_congr fun i _ hlast => ?_
  by_cases hi : i < 64
  · have hbit : ∀ z : Int, (z >>> i) % 2 = z % 2 ^ (last + 1) / 2 ^ i % 2 := by
      intro z
      rw [Mask.emod_two_pow_shift z (Nat.lt_succ_of_le hlast), Int.shiftRight_eq_div_pow]
      norm_cast
    rw [Mask.getLsbD_ofInt mask' hi, Mask.getLsbD_ofInt mask hi, hbit, hbit, h]
  · rw [BitVec.getLsbD_of_ge _ _ (Nat.le_of_not_lt hi),
      BitVec.getLsbD_of_ge _ _ (Nat.le_of_not_lt hi)]

end RadarProfile
