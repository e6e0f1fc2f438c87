import Mathlib.Data.Nat.Digits.Defs
import RadarProfile.Proofs.Conversion
import RadarProfile.Proofs.Literals
import RadarProfile.Proofs.Masks

set_option autoImplicit false

/-! # Fields that are read as integers

`IntegerLiteral` is the grammar of integer literals, and the value of one is what its digits say
by their places. Exactly the literals whose value fits 64 bits are read, each as its value
(`Integer.ofText?_toText`, `Integer.ofText?_eq_none`), so of every token in a field for integers
or for masks it is known what comes of it (`Command.parameters_integer_field`). The value is
computed whole and then compared with the range. A reader with no more than 64 bits, which takes
digit after digit and gives up at the first result that does not fit, reads the same
(`Integer.ofText?_eq_foldlM`). -/

namespace RadarProfile

/-! ## Integer literals -/

/-- An integer literal: at most one sign, and one or more ASCII digits. -/
structure IntegerLiteral where
  sign : Text
  digits : Text
  sign_mem : sign ∈ [[], ['+'], ['-']]
  numeral : Text.isNumeral digits = true

namespace Text

def digitValue (c : Char) : Nat := c.toNat - '0'.toNat

/-- The number that digits denote by their places: the last one counts ones, and each other
ten times what the one behind it counts. -/
def placeValue (digits : Text) : Nat := Nat.ofDigits 10 (digits.reverse.map digitValue)

theorem placeValue_snoc (digits : Text) (c : Char) :
    placeValue (digits ++ [c]) = 10 * placeValue digits + digitValue c := by
  unfold placeValue
  rw [List.reverse_append, List.reverse_singleton, List.singleton_append, List.map_cons,
    Nat.ofDigits_cons]
  exact Nat.add_comm _ _

/-- Taking digits from the front gives the number that they denote by their places. -/
theorem numeralValue_eq_placeValue (digits : Text) :
    numeralValue digits = placeValue digits := by
  induction digits using List.reverseRecOn with
  | nil => rfl
  | append_singleton digits c ih =>
      rw [numeralValue_snoc, placeValue_snoc, ih]
      rfl

end Text

namespace IntegerLiteral

def toText (l : IntegerLiteral) : Text := l.sign ++ l.digits

def value (l : IntegerLiteral) : Int :=
  if l.sign = ['-'] then -(Text.placeValue l.digits : Int) else Text.placeValue l.digits

def Fits (l : IntegerLiteral) : Prop := -2 ^ 63 ≤ l.value ∧ l.value ≤ 2 ^ 63 - 1

instance (l : IntegerLiteral) : Decidable l.Fits :=
  inferInstanceAs (Decidable (-2 ^ 63 ≤ l.value ∧ l.value ≤ 2 ^ 63 - 1))

variable (l : IntegerLiteral)

theorem splitSign_toText : Text.splitSign l.toText = (decide (l.sign = ['-']), l.digits) :=
  Text.splitSign_append l.sign_mem l.numeral

theorem ofLiteral?_toText : Integer.ofLiteral? l.toText = some l.value := by
  unfold Integer.ofLiteral? value
  simp only [splitSign_toText, l.numeral, if_true, Text.numeralValue_eq_placeValue,
    decide_eq_true_eq]

/-- **Only integer literals are read**, whatever their size. -/
theorem exists_toText_eq {t : Text} {z : Int} (h : Integer.ofLiteral? t = some z) :
    ∃ l : IntegerLiteral, l.toText = t := by
  obtain ⟨sign, hsign, ht⟩ := Text.exists_sign t
  unfold Integer.ofLiteral? at h
  by_cases hnumeral : Text.isNumeral (Text.splitSign t).2 = true
  · exact ⟨⟨sign, _, hsign, hnumeral⟩, ht⟩
  · simp [hnumeral] at h

end IntegerLiteral

namespace Integer

/-- **A literal is read as its value if that fits 64 bits**, and refused otherwise. -/
theorem ofText?_toText (l : IntegerLiteral) :
    ofText? l.toText = if l.Fits then some l.value else none := by
  unfold ofText? IntegerLiteral.Fits
  rw [l.ofLiteral?_toText]
  rfl

/-- **A text that is no literal is refused.** -/
theorem ofText?_eq_none {t : Text} (h : ∀ l : IntegerLiteral, l.toText ≠ t) :
    ofText? t = none := by
  unfold ofText?
  cases hliteral : ofLiteral? t with
  | none => rfl
  | some z =>
      obtain ⟨l, hl⟩ := IntegerLiteral.exists_toText_eq hliteral
      exact absurd hl (h l)

/-! ## Digit after digit -/

/-- The integer, if it fits 64 bits. -/
def checked (z : Int) : Option Int := if least ≤ z ∧ z ≤ greatest then some z else none

/-- One more digit behind a number: ten times the number, and then the digit added to it, or
taken away from it behind a minus sign. Both results have to fit. -/
def pushDigit (negative : Bool) (z : Int) (c : Char) : Option Int :=
  (checked (10 * z)).bind fun shifted =>
    checked (if negative then shifted - Text.digitValue c else shifted + Text.digitValue c)

def signed (negative : Bool) (size : Nat) : Int := if negative then -size else size

/-- A digit leads away from zero. So a number that does not fit stays so with one more digit,
and if the number with the digit fits, then both steps to it do. -/
theorem checked_bind_pushDigit (negative : Bool) (size : Nat) (c : Char) :
    ((checked (signed negative size)).bind fun z => pushDigit negative z c) =
      checked (signed negative (10 * size + Text.digitValue c)) := by
  unfold pushDigit
  generalize Text.digitValue c = digit
  have hstep : (if negative = true then 10 * signed negative size - (digit : Int)
      else 10 * signed negative size + digit) = signed negative (10 * size + digit) := by
    unfold signed
    split_ifs
    · omega
    · omega
  by_cases hfits : least ≤ signed negative (10 * size + digit) ∧
      signed negative (10 * size + digit) ≤ greatest
  · -- both steps on the way lie between zero and the result
    have hshifted : least ≤ 10 * signed negative size ∧
        10 * signed negative size ≤ greatest := by
      unfold signed least greatest at hfits ⊢
      split_ifs at hfits ⊢
      · omega
      · omega
    have hsize : least ≤ signed negative size ∧ signed negative size ≤ greatest := by
      unfold least greatest at hshifted ⊢
      omega
    simp only [checked, if_pos hsize, if_pos hshifted, Option.bind_some, hstep]
  · -- the last step is the one that is refused, if no other is
    have hlast : checked (signed negative (10 * size + digit)) = none := if_neg hfits
    rw [hlast, Option.bind_eq_none_iff]
    intro z hz
    rw [Option.bind_eq_none_iff]
    intro shifted hshifted
    simp only [checked, Option.ite_none_right_eq_some, Option.some.injEq] at hz hshifted
    obtain ⟨-, rfl⟩ := hz
    obtain ⟨-, rfl⟩ := hshifted
    rw [hstep]
    exact hlast

/-- **Stopping at the first overflow** loses no number that fits, and lets none pass that does
not. -/
theorem foldlM_pushDigit (negative : Bool) (digits : Text) :
    digits.foldlM (pushDigit negative) 0 =
      checked (signed negative (Text.placeValue digits)) := by
  induction digits using List.reverseRecOn with
  | nil =>
      cases negative
      · rfl
      · rfl
  | append_singleton digits c ih =>
      rw [List.foldlM_append, ih, Text.placeValue_snoc, ← checked_bind_pushDigit]
      simp

/-- **A reader of 64 bits reads the same**: it starts from zero and takes the digits one after
the other. -/
theorem ofText?_eq_foldlM (l : IntegerLiteral) :
    ofText? l.toText = l.digits.foldlM (pushDigit (decide (l.sign = ['-']))) 0 := by
  have hvalue : signed (decide (l.sign = ['-'])) (Text.placeValue l.digits) = l.value := by
    simp [signed, IntegerLiteral.value]
  rw [foldlM_pushDigit, hvalue]
  unfold ofText?
  rw [l.ofLiteral?_toText]
  rfl

end Integer

/-! ## Tokens of a field -/

namespace Transform

/-- What a field makes of the integer that its token denotes. A field for masks counts the
positions with a one, in two's complement; other fields take the integer as it is. -/
def ofInteger : Transform → Int → Int
  | popcount first last, mask => (Mask.positions mask first last).card
  | int, z => z
  | float, z => z

theorem convert?_eq_map {transform : Transform} (h : transform.expected = .int) (token : Text) :
    transform.convert? token =
      (Integer.ofText? token).map fun z => .int (transform.ofInteger z) := by
  cases transform with
  | int => rfl
  | float => cases h
  | popcount first last =>
      unfold convert? ofInteger
      simp only [popcount_eq_card]

end Transform

namespace Command

/-- **A field that is read as an integer is read exactly.** Its token is converted if it is an
integer literal with a value that fits 64 bits, and then that very value is taken, or the ones
of it are counted where the field is for masks. Any other token is the fault of the command, as
it is. To take one digit after the other, and to stop when the number so far does not fit, comes
to the same. -/
theorem parameters_integer_field {keyword : Text} {before : List Text} {rule : Rule}
    {front : List Parameter} (hrule : Schema.rule? keyword (before.length + 1) = some rule)
    (hinteger : rule.transform.expected = .int)
    (hfront : parametersFrom keyword 1 before = .ok front) (token : Text)
    (after : List Text) :
    ∃ converted : Option Int,
      (⟨keyword, before ++ token :: after⟩ : Command).parameters =
        (match converted with
        | none => .error ⟨keyword, before.length + 1, token, .int⟩
        | some z => (parametersFrom keyword (before.length + 2) after).map fun back =>
            front ++ ⟨rule.parameter, .int (rule.transform.ofInteger z)⟩ :: back) ∧
      (∀ l : IntegerLiteral, l.toText = token →
        converted = if l.Fits then some l.value else none) ∧
      ((∀ l : IntegerLiteral, l.toText ≠ token) → converted = none) ∧
      (∀ l : IntegerLiteral, l.toText = token →
        converted = l.digits.foldlM (Integer.pushDigit (l.sign = ['-'])) 0) := by
  refine ⟨Integer.ofText? token, ?_, ?_, Integer.ofText?_eq_none, ?_⟩
  · rw [parameters_of_rule hrule, hfront, rule.transform.convert?_eq_map hinteger, hinteger]
    cases Integer.ofText? token with
    | none => rfl
    | some z => rfl
  · rintro l rfl
    exact Integer.ofText?_toText l
  · rintro l rfl
    exact Integer.ofText?_eq_foldlM l

/-- The least integer of 64 bits, with zeros in front of its digits, is a mask without ones at
its first positions. The integer below it is refused. -/
theorem parameters_integer_field_of_bounds :
    let least : IntegerLiteral :=
      ⟨['-'], "0009223372036854775808".toList, by decide, by decide⟩
    let below : IntegerLiteral :=
      ⟨['-'], "9223372036854775809".toList, by decide, by decide⟩
    least.value = -2 ^ 63 ∧ below.value = -2 ^ 63 - 1 ∧
      (⟨"channelCfg".toList, [least.toText]⟩ : Command).parameters =
        .ok [⟨"numTxAzimAnt".toList, .int 0⟩] ∧
      (⟨"channelCfg".toList, [least.toText, below.toText]⟩ : Command).parameters =
        .error ⟨"channelCfg".toList, 2, below.toText, .int⟩ := by
  intro least below
  have hleast : least.value = -2 ^ 63 := by decide +kernel
  have hbelow : below.value = -2 ^ 63 - 1 := by decide +kernel
  obtain ⟨first, hfirst, hvalue, -⟩ := parameters_integer_field
    (show Schema.rule? "channelCfg".toList (([] : List Text).length + 1) =
      some (.named "channelCfg" 1 "numTxAzimAnt" (.popcount 0 1)) by decide +kernel)
    rfl (show parametersFrom _ 1 [] = .ok [] from rfl) least.toText []
  have hones : (Mask.positions (-2 ^ 63) 0 1).card = 0 := by decide +kernel
  have hparameters : (⟨"channelCfg".toList, [least.toText]⟩ : Command).parameters =
      .ok [⟨"numTxAzimAnt".toList, .int 0⟩] := by
    rw [hvalue least rfl, if_pos (by decide +kernel), hleast] at hfirst
    have hmade : (Transform.popcount 0 1).ofInteger (-2 ^ 63) = 0 := congrArg Nat.cast hones
    refine hfirst.trans ?_
    show Except.ok [(⟨_, .int ((Transform.popcount 0 1).ofInteger (-2 ^ 63))⟩ : Parameter)] = _
    rw [hmade]
    rfl
  obtain ⟨second, hsecond, hnone, -⟩ := parameters_integer_field
    (show Schema.rule? "channelCfg".toList ([least.toText].length + 1) =
      some (.named "channelCfg" 2 "numRxAnt" (.popcount 0 3)) by decide +kernel)
    rfl hparameters below.toText []
  rw [hnone below rfl, if_neg (by decide +kernel)] at hsecond
  exact ⟨hleast, hbelow, hparameters, hsecond⟩

end Command

end RadarProfile
