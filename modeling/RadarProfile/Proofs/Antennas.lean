import RadarProfile.Proofs.Masks
import RadarProfile.Proofs.Rules

set_option autoImplicit false

/-! # Counting antennas

A mask says by its ones which antennas are on. The positions of a range are gone through one
after the other, and the count of ones stays far below what 32 bits hold (`foldlM_countBit`).
The fields of `channelCfg` are masks, and each gives the count of its first bits; so all that
matters of such a token is the residue of its number (`Command.parameters_set_of_convert?`,
`Transform.convert?_eq_of_emod_eq`). -/

namespace RadarProfile

/-! ## One position after the other -/

namespace Mask

/-- One position more: the bit there is added to the count, which has to stay within 32
bits. -/
def countBit (mask : Int) (count i : Nat) : Option Nat :=
  let next := count + ((mask >>> i) % 2).toNat
  if next < 2 ^ 32 then some next else none

/-- The positions of a range, in order, without those that 64 bits do not have. -/
def range (first last : Nat) : List Nat :=
  (List.range' first (last + 1 - first)).filter (· < 64)

theorem mem_range_iff {first last i : Nat} :
    i ∈ range first last ↔ first ≤ i ∧ i ≤ last ∧ i < 64 := by
  simp only [range, List.mem_filter, List.mem_range'_1, decide_eq_true_eq]
  omega

theorem nodup_range (first last : Nat) : (range first last).Nodup :=
  (List.nodup_range' 1).filter _

theorem length_range_le (first last : Nat) : (range first last).length ≤ 64 := by
  rw [← List.toFinset_card_of_nodup (nodup_range first last), ← Finset.card_range 64]
  refine Finset.card_le_card fun i hi => ?_
  rw [List.mem_toFinset, mem_range_iff] at hi
  exact Finset.mem_range.mpr hi.2.2

/-- As long as there are fewer positions than 32 bits can count, each of them is counted. -/
theorem foldlM_countBit_of_short (mask : Int) (positions : List Nat) (count : Nat)
    (h : count + positions.length < 2 ^ 32) :
    positions.foldlM (countBit mask) count =
      some (count + positions.countP fun i : Nat => (mask >>> i) % 2 == 1) := by
  induction positions generalizing count with
  | nil => rfl
  | cons i rest ih =>
      rw [List.length_cons] at h
      have hbit : ((mask >>> i) % 2).toNat = if (mask >>> i) % 2 == 1 then 1 else 0 := by
        rcases Int.emod_two_eq_zero_or_one (mask >>> i) with hzero | hone
        · simp [hzero]
        · simp [hone]
      have hnext : count + ((mask >>> i) % 2).toNat ≤ count + 1 := by
        rw [hbit]
        split_ifs
        · omega
        · omega
      rw [List.foldlM_cons, countBit, if_pos (by omega), Option.bind_eq_bind, Option.bind_some,
        ih _ (by omega), List.countP_cons, hbit]
      congr 1
      omega

/-- **The count never overflows**, and in the end it is the number of ones in the range. -/
theorem foldlM_countBit (mask : Int) (first last : Nat) :
    (range first last).foldlM (countBit mask) 0 = some (popcount mask first last) := by
  have hlength := length_range_le first last
  have hones : ((range first last).filter fun i : Nat => (mask >>> i) % 2 == 1).toFinset =
      positions mask first last := by
    ext i
    simp only [List.mem_toFinset, List.mem_filter, mem_range_iff, mem_positions_iff, beq_iff_eq]
    tauto
  rw [foldlM_countBit_of_short mask _ 0 (by omega), Nat.zero_add, popcount_eq_card, ← hones,
    List.toFinset_card_of_nodup ((nodup_range first last).filter _),
    List.countP_eq_length_filter]

theorem positions_eq (mask : Int) (first last : Nat) :
    positions mask first last = (Finset.Icc first last).filter fun i =>
      i < 64 ∧ (BitVec.ofInt 64 mask).getLsbD i = true := by
  refine Finset.filter_congr fun i _ => ?_
  exact ⟨fun hbit => ⟨BitVec.lt_of_getLsbD hbit, hbit⟩, And.right⟩

end Mask

/-! ## Tokens that are converted alike -/

/-- A field for the first bits of a mask makes the same of two numbers with one residue. -/
theorem Transform.convert?_eq_of_emod_eq {last : Nat} {token token' : Text} {mask mask' : Int}
    (htoken : Integer.ofText? token = some mask) (htoken' : Integer.ofText? token' = some mask')
    (h : mask' % 2 ^ (last + 1) = mask % 2 ^ (last + 1)) :
    (popcount 0 last).convert? token' = (popcount 0 last).convert? token := by
  rw [convert?, convert?, htoken, htoken', Option.map_some, Option.map_some,
    popcount_eq_of_emod_eq h]

namespace Command

/-- **A token counts as what it is converted to**: another one that is converted alike can
stand in its place. -/
theorem parameters_set_of_convert? {c : Command} {parameters : List Parameter} {place : Nat}
    {rule : Rule} {token token' : Text} (h : c.parameters = .ok parameters)
    (hrule : Schema.rule? c.keyword (place + 1) = some rule)
    (htoken : c.arguments[place]? = some token)
    (hconvert : rule.transform.convert? token' = rule.transform.convert? token) :
    (⟨c.keyword, c.arguments.set place token'⟩ : Command).parameters = .ok parameters := by
  obtain ⟨hplace, rfl⟩ := List.getElem?_eq_some_iff.mp htoken
  have hbefore : (c.arguments.take place).length = place :=
    List.length_take_of_le (Nat.le_of_lt hplace)
  have hsplit : c = ⟨c.keyword,
      c.arguments.take place ++ c.arguments[place] :: c.arguments.drop (place + 1)⟩ := by
    rw [← List.drop_eq_getElem_cons hplace, List.take_append_drop]
  have hrule' : Schema.rule? c.keyword ((c.arguments.take place).length + 1) = some rule := by
    rw [hbefore]
    exact hrule
  rw [hsplit, parameters_of_rule hrule'] at h
  rw [List.set_eq_take_append_cons_drop, if_pos hplace, parameters_of_rule hrule', hconvert]
  -- the token itself would show only in a fault, and there is none
  cases hvalue : rule.transform.convert? c.arguments[place] with
  | some value =>
      rw [hvalue] at h
      exact h
  | none =>
      rw [hvalue] at h
      cases hfront : parametersFrom c.keyword 1 (c.arguments.take place) with
      | error fault => rw [hfront] at h; cases h
      | ok front => rw [hfront] at h; cases h

/-! ## Channels -/

def channelRules : List Rule :=
  [.named "channelCfg" 1 "numTxAzimAnt" (.popcount 0 1),
   .named "channelCfg" 2 "numRxAnt" (.popcount 0 3)]

theorem fields_of_channels (arguments : List Text) :
    (⟨"channelCfg".toList, arguments⟩ : Command).fields =
      List.zipWith Field.mk channelRules arguments := by
  match arguments with
  | [] => rfl
  | [_] => rfl
  | _ :: _ :: _ => rfl

variable {arguments : List Text} {parameters : List Parameter}

/-- Channels have one parameter for each of their first two tokens. -/
theorem length_parameters_of_channels
    (h : (⟨"channelCfg".toList, arguments⟩ : Command).parameters = .ok parameters) :
    parameters.length = min 2 arguments.length := by
  rw [parameters_eq_outcome, Field.outcome_eq_ok_iff, fields_of_channels] at h
  have hlength := congrArg List.length h
  rw [List.length_map, List.length_map, List.length_zipWith] at hlength
  exact hlength.symm

/-- **A mask of channels** gives the count of its first bits, and counts by its residue. -/
theorem parameters_of_channels
    (h : (⟨"channelCfg".toList, arguments⟩ : Command).parameters = .ok parameters)
    {place last : Nat} {name : String} {token : Text}
    (hrule : channelRules[place]? =
      some (.named "channelCfg" (place + 1) name (.popcount 0 last)))
    (htoken : arguments[place]? = some token) :
    ∃ mask, Integer.ofText? token = some mask ∧
      parameters[place]? = some ⟨name.toList, .int (popcount mask 0 last)⟩ ∧
      popcount mask 0 last ≤ last + 1 ∧
      ∀ token' mask', Integer.ofText? token' = some mask' →
        mask' % 2 ^ (last + 1) = mask % 2 ^ (last + 1) →
          (⟨"channelCfg".toList, arguments.set place token'⟩ : Command).parameters =
            .ok parameters := by
  have hschema : Schema.rule? "channelCfg".toList (place + 1) =
      some (.named "channelCfg" (place + 1) name (.popcount 0 last)) := by
    have hmem : ∀ rule ∈ channelRules, rule ∈ Schema.rules := by decide +kernel
    exact Schema.rule?_eq_some_iff.mpr ⟨hmem _ (List.mem_of_getElem? hrule), rfl, rfl⟩
  have hfields := h
  rw [parameters_eq_outcome, Field.outcome_eq_ok_iff, fields_of_channels] at hfields
  have hplace := congrArg (·[place]?) hfields
  simp only [List.getElem?_map, List.getElem?_zipWith, hrule, htoken, Option.map_some] at hplace
  obtain ⟨parameter, hparameter, hfound⟩ := Option.map_eq_some_iff.mp hplace.symm
  obtain ⟨value, hvalue, rfl⟩ := Option.map_eq_some_iff.mp hfound.symm
  obtain ⟨mask, hmask, rfl⟩ := Option.map_eq_some_iff.mp hvalue
  refine ⟨mask, hmask, hparameter, popcount_le_length mask 0 last, ?_⟩
  intro token' mask' htoken' hresidue
  exact parameters_set_of_convert? h hschema htoken
    (Transform.convert?_eq_of_emod_eq hmask htoken' hresidue)

end Command

/-- **Every one of a mask in a range counts once.** The count is the number of positions in the
range, below 64, at which the mask has a one in two's complement; it never overflows 32 bits
while it is taken position by position. Ranges side by side add up, a mask and its complement
share the positions of a range, and bits outside it do not matter. So of the tokens for channels,
the first one gives at most two transmit antennas and matters modulo 4, the second one gives at
most four receive antennas and matters modulo 16, and there is no parameter besides. -/
theorem ones_count_once (mask : Int) (first last : Nat) :
    popcount mask first last = ((Finset.Icc first last).filter fun i =>
      i < 64 ∧ (BitVec.ofInt 64 mask).getLsbD i = true).card ∧
    (Mask.range first last).foldlM (Mask.countBit mask) 0 = some (popcount mask first last) ∧
    (∀ mid, first ≤ mid → mid < last →
      popcount mask first last = popcount mask first mid + popcount mask (mid + 1) last) ∧
    popcount mask first last + popcount (~~~mask) first last =
      ((Finset.Icc first last).filter (· < 64)).card ∧
    (∀ mask', (∀ i, first ≤ i → i ≤ last →
        (BitVec.ofInt 64 mask').getLsbD i = (BitVec.ofInt 64 mask).getLsbD i) →
      popcount mask' first last = popcount mask first last) ∧
    (∀ arguments parameters,
      (⟨"channelCfg".toList, arguments⟩ : Command).parameters = .ok parameters →
        parameters.length = min 2 arguments.length ∧
        (∀ token, arguments[0]? = some token → ∃ tx, Integer.ofText? token = some tx ∧
          parameters[0]? = some ⟨"numTxAzimAnt".toList, .int (popcount tx 0 1)⟩ ∧
          popcount tx 0 1 ≤ 2 ∧
          ∀ token' tx', Integer.ofText? token' = some tx' → tx' % 4 = tx % 4 →
            (⟨"channelCfg".toList, arguments.set 0 token'⟩ : Command).parameters =
              .ok parameters) ∧
        (∀ token, arguments[1]? = some token → ∃ rx, Integer.ofText? token = some rx ∧
          parameters[1]? = some ⟨"numRxAnt".toList, .int (popcount rx 0 3)⟩ ∧
          popcount rx 0 3 ≤ 4 ∧
          ∀ token' rx', Integer.ofText? token' = some rx' → rx' % 16 = rx % 16 →
            (⟨"channelCfg".toList, arguments.set 1 token'⟩ : Command).parameters =
              .ok parameters)) := by
  refine ⟨?_, Mask.foldlM_countBit mask first last, fun mid => popcount_add_popcount mask,
    popcount_add_popcount_not mask first last, fun mask' => popcount_congr, ?_⟩
  · rw [popcount_eq_card, Mask.positions_eq]
  · intro arguments parameters h
    refine ⟨Command.length_parameters_of_channels h, fun token htoken => ?_, fun token htoken => ?_⟩
    · exact Command.parameters_of_channels h rfl htoken
    · exact Command.parameters_of_channels h rfl htoken

/-- A negative mask in a range that reaches as far as 32 bits do, cut after its third position,
and without its first bit. The mask is one of two that agree modulo 4. -/
theorem ones_count_once_of_negative :
    let parameters : List Parameter :=
      [⟨"numTxAzimAnt".toList, .int 1⟩, ⟨"numRxAnt".toList, .int 3⟩]
    popcount (-6) 1 4294967295 = 62 ∧
      popcount (-6) 1 4294967295 = popcount (-6) 1 3 + popcount (-6) (3 + 1) 4294967295 ∧
      popcount (-5) 1 4294967295 = 62 ∧
      (⟨"channelCfg".toList, ["-6".toList, "7".toList]⟩ : Command).parameters =
        .ok parameters ∧
      (⟨"channelCfg".toList, ["2".toList, "7".toList]⟩ : Command).parameters =
        .ok parameters ∧
      (⟨"channelCfg".toList, ["-6".toList, "-9".toList]⟩ : Command).parameters =
        .ok parameters := by
  intro parameters
  obtain ⟨-, -, hsplit, -, hcongr, hchannels⟩ := ones_count_once (-6) 1 4294967295
  have hcount : popcount (-6) 1 4294967295 = 62 := by decide +kernel
  have hparameters : (⟨"channelCfg".toList, ["-6".toList, "7".toList]⟩ : Command).parameters =
      .ok parameters :=
    (Command.parameters_eq_outcome _).trans
      (Command.Field.outcome_eq_ok_iff.mpr (by decide +kernel))
  obtain ⟨-, htx, hrx⟩ := hchannels _ _ hparameters
  obtain ⟨tx, hmask, -, -, hresidue⟩ := htx "-6".toList rfl
  obtain rfl : tx = -6 := Option.some.inj (hmask.symm.trans (by decide +kernel))
  obtain ⟨rx, hmask', -, -, hresidue'⟩ := hrx "7".toList rfl
  obtain rfl : rx = 7 := Option.some.inj (hmask'.symm.trans (by decide +kernel))
  refine ⟨hcount, hsplit 3 (by decide) (by decide), (hcongr (-5) ?_).trans hcount, hparameters,
    hresidue "2".toList 2 (by decide +kernel) (by decide),
    hresidue' "-9".toList (-9) (by decide +kernel) (by decide)⟩
  -- the masks differ in their first bit only
  intro i hfirst hlast
  by_cases hi : i < 64
  · have hbits : ∀ i : Fin 64, 1 ≤ i.val →
        (BitVec.ofInt 64 (-5)).getLsbD i = (BitVec.ofInt 64 (-6)).getLsbD i := by
      decide +kernel
    exact hbits ⟨i, hi⟩ hfirst
  · rw [BitVec.getLsbD_of_ge _ _ (Nat.le_of_not_lt hi),
      BitVec.getLsbD_of_ge _ _ (Nat.le_of_not_lt hi)]

end RadarProfile
