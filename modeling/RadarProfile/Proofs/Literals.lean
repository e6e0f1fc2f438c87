import Mathlib.Algebra.Order.Ring.Nat
import Mathlib.Data.List.Basic
import Mathlib.Data.List.Infix
import Mathlib.Data.List.TakeDrop
import Mathlib.Data.List.TakeWhile
import RadarProfile.Command.Basic
import RadarProfile.Number.Decimal
import RadarProfile.Number.Integer

set_option autoImplicit false

/-! # Texts of numbers

`DecimalLiteral` is the grammar of decimal literals, part by part. They are what is read as a
decimal number, and nothing else is; the number is what the parts say, but for the last digits
of an exponent that is beyond the ceiling (`ofText?_eq_some_iff`). `JsonNumber` is the grammar
of numbers in JSON. Such a text is one word (`words_toText`), and it is a decimal literal
(`ofText?_toText`). A row of digits, and with it the text of an integer, is a special case. -/

namespace RadarProfile

namespace Text

/-! ## Rows of digits -/

theorem isDigit_of_mem_ofNat {n : Nat} {c : Char} (h : c ∈ ofNat n) : c.isDigit = true :=
  Nat.isDigit_of_mem_toDigits (by decide) (by decide) h

theorem isNumeral_ofNat (n : Nat) : isNumeral (ofNat n) = true := by
  have hnonempty : ofNat n ≠ [] := Nat.toDigits_ne_nil
  rw [isNumeral, Bool.and_eq_true, List.all_eq_true]
  constructor
  · simpa using hnonempty
  · intro c hc
    exact isDigit_of_mem_ofNat hc

/-- **The digits of a number read back as it.** -/
theorem numeralValue_ofNat (n : Nat) : numeralValue (ofNat n) = n :=
  Nat.ofDigitChars_ten_toDigits

theorem numeralValue_append (a b : Text) :
    numeralValue (a ++ b) = 10 ^ b.length * numeralValue a + numeralValue b := by
  unfold numeralValue
  rw [Nat.ofDigitChars_append, Nat.ofDigitChars_eq_ofDigitChars_zero]

theorem numeralValue_snoc (digits : Text) (c : Char) :
    numeralValue (digits ++ [c]) = 10 * numeralValue digits + (c.toNat - 48) := by
  rw [numeralValue_append]
  simp [numeralValue, Nat.ofDigitChars_cons]

theorem numeralValue_le_of_isPrefix {front digits : Text} (h : front <+: digits) :
    numeralValue front ≤ numeralValue digits := by
  obtain ⟨rest, rfl⟩ := h
  have hpow : 0 < 10 ^ rest.length := Nat.pow_pos (by decide)
  have := Nat.le_mul_of_pos_left (numeralValue front) hpow
  rw [numeralValue_append]
  omega

theorem numeralValue_replicate_zero (n : Nat) : numeralValue (List.replicate n '0') = 0 :=
  (Nat.ofDigitChars_replicate_zero).trans (Nat.mul_zero _)

/-- A positive number does not begin with a zero. -/
theorem head?_ofNat_ne {n : Nat} (h : 0 < n) : (ofNat n).head? ≠ some '0' := by
  induction n using Nat.strongRecOn with
  | ind n ih =>
      unfold ofNat at ih ⊢
      by_cases hsmall : n < 10
      · rw [Nat.toDigits_of_lt_base hsmall]
        have hdigit : ∀ k : Nat, k < 10 → 0 < k → [k.digitChar].head? ≠ some '0' := by decide
        exact hdigit n hsmall h
      · -- the first digit is that of the number without its last one
        have hprefix := ih (n / 10) (by omega) (by omega)
        rw [Nat.toDigits_of_base_le (by decide) (by omega),
          List.head?_append_of_ne_nil _ Nat.toDigits_ne_nil]
        exact hprefix

theorem isDigit_of_mem_replicate_zero {n : Nat} {c : Char} (h : c ∈ List.replicate n '0') :
    c.isDigit = true := by
  rw [(List.mem_replicate.mp h).2]
  rfl

theorem isNumeral_iff {t : Text} :
    isNumeral t = true ↔ t ≠ [] ∧ ∀ c ∈ t, c.isDigit = true := by
  simp [isNumeral, List.all_eq_true]

theorem splitSign_of_isDigit {c : Char} (h : c.isDigit = true) (rest : Text) :
    splitSign (c :: rest) = (false, c :: rest) := by
  unfold splitSign
  split
  · next heq =>
      cases (List.cons.inj heq).1
      cases h
  · next heq =>
      cases (List.cons.inj heq).1
      cases h
  · rfl

/-- A sign in front of digits is split off. -/
theorem splitSign_append {sign digits : Text} (hsign : sign ∈ [[], ['+'], ['-']])
    (hdigits : isNumeral digits = true) :
    splitSign (sign ++ digits) = (decide (sign = ['-']), digits) := by
  have hcases : sign = [] ∨ sign = ['+'] ∨ sign = ['-'] := by simpa using hsign
  rcases hcases with rfl | rfl | rfl
  · -- the digits are not empty, and the first one is no sign
    obtain ⟨hnonempty, hall⟩ := isNumeral_iff.mp hdigits
    obtain ⟨c, rest, rfl⟩ := List.exists_cons_of_ne_nil hnonempty
    exact splitSign_of_isDigit (hall c List.mem_cons_self) rest
  · rfl
  · rfl

theorem exists_sign (t : Text) :
    ∃ sign, sign ∈ [[], ['+'], ['-']] ∧ sign ++ (splitSign t).2 = t := by
  unfold splitSign
  split
  · exact ⟨['-'], by decide, rfl⟩
  · exact ⟨['+'], by decide, rfl⟩
  · exact ⟨[], by decide, rfl⟩

/-- Digits are split from what follows, if that does not begin with a digit. -/
theorem span_isDigit {digits rest : Text} (h : ∀ c ∈ digits, c.isDigit = true)
    (hrest : ∀ c ∈ rest.head?, c.isDigit = false) :
    (digits ++ rest).span Char.isDigit = (digits, rest) := by
  have htake : rest.takeWhile Char.isDigit = [] := by
    cases rest with
    | nil => rfl
    | cons c rest => rw [List.takeWhile_cons_of_neg (by simpa using hrest c rfl)]
  have hdrop : rest.dropWhile Char.isDigit = rest := by
    cases rest with
    | nil => rfl
    | cons c rest => rw [List.dropWhile_cons_of_neg (by simpa using hrest c rfl)]
  rw [List.span_eq_takeWhile_dropWhile, List.takeWhile_append_of_pos h,
    List.dropWhile_append_of_pos h, htake, hdrop, List.append_nil]

end Text

/-! ## Integers -/

namespace Integer

theorem ofLiteral?_ofInt (z : Int) : ofLiteral? (Text.ofInt z) = some z := by
  have hnumeral := Text.isNumeral_ofNat z.natAbs
  unfold Text.ofInt
  by_cases h : z < 0
  · rw [if_pos h]
    simp only [ofLiteral?, Text.splitSign, hnumeral, if_true, Text.numeralValue_ofNat]
    congr 1
    omega
  · rw [if_neg h]
    have hsplit : Text.splitSign (Text.ofNat z.natAbs) = (false, Text.ofNat z.natAbs) :=
      Text.splitSign_append List.mem_cons_self hnumeral
    simp only [ofLiteral?, hsplit, hnumeral, if_true, Text.numeralValue_ofNat,
      Bool.false_eq_true, if_false]
    congr 1
    omega

/-- **The text of an integer of 64 bits reads back as it.** -/
theorem ofText?_ofInt {z : Int} (h : least ≤ z ∧ z ≤ greatest) :
    ofText? (Text.ofInt z) = some z := by
  simp only [ofText?, ofLiteral?_ofInt, h, and_self, if_true]

end Integer

/-! ## Exponents -/

namespace Decimal

/-- The digits of an exponent that are read: the shortest front of them whose number has
reached the ceiling, or all of them. -/
def readDigits (digits : Text) : Text :=
  (digits.inits.find? fun front => exponentCeiling ≤ Text.numeralValue front).getD digits

theorem prefix_readDigits (digits : Text) : readDigits digits <+: digits := by
  unfold readDigits
  cases h : digits.inits.find? fun front => exponentCeiling ≤ Text.numeralValue front with
  | none => exact List.prefix_refl digits
  | some front => exact (List.mem_inits _ _).mp (List.mem_of_find?_eq_some h)

/-- Digits are left out only once the ceiling is reached. -/
theorem readDigits_cases (digits : Text) :
    readDigits digits = digits ∨ exponentCeiling ≤ Text.numeralValue (readDigits digits) := by
  unfold readDigits
  cases h : digits.inits.find? fun front => exponentCeiling ≤ Text.numeralValue front with
  | none => exact Or.inl rfl
  | some front =>
      have hfront := List.find?_some h
      exact Or.inr (of_decide_eq_true hfront)

theorem ceiling_le_readDigits {digits : Text}
    (h : exponentCeiling ≤ Text.numeralValue digits) :
    exponentCeiling ≤ Text.numeralValue (readDigits digits) :=
  (readDigits_cases digits).elim (fun hall => hall.symm ▸ h) id

/-- One more digit is read if the ceiling is not reached before it. -/
theorem readDigits_snoc (digits : Text) (c : Char) :
    readDigits (digits ++ [c]) =
      if exponentCeiling ≤ Text.numeralValue (readDigits digits) then readDigits digits
      else digits ++ [c] := by
  have hinits : (digits ++ [c]).inits = digits.inits ++ [digits ++ [c]] := by
    rw [List.inits_append]
    rfl
  unfold readDigits
  rw [hinits, List.find?_append]
  cases h : digits.inits.find? fun front => exponentCeiling ≤ Text.numeralValue front with
  | some front =>
      have hfront := List.find?_some h
      rw [Option.some_or, Option.getD_some, Option.getD_some,
        if_pos (of_decide_eq_true hfront)]
  | none =>
      have hdigits := List.find?_eq_none.mp h digits
        ((List.mem_inits _ _).mpr (List.prefix_refl digits))
      rw [decide_eq_true_eq] at hdigits
      rw [Option.getD_none, if_neg hdigits, Option.none_or]
      -- the digits with the last one are read, whether they reach the ceiling or not
      rw [List.find?_singleton]
      split_ifs
      · rfl
      · rfl

/-- **An exponent is the number of the digits that are read.** -/
theorem exponentValue_eq_readDigits (digits : Text) :
    exponentValue digits = Text.numeralValue (readDigits digits) := by
  induction digits using List.reverseRecOn with
  | nil => rfl
  | append_singleton digits c ih =>
      have hstep : exponentValue (digits ++ [c]) =
          if exponentValue digits < exponentCeiling then
            10 * exponentValue digits + (c.toNat - 48) else exponentValue digits := by
        rw [exponentValue, List.foldl_append]
        rfl
      rw [hstep, ih, readDigits_snoc]
      by_cases hceiling : exponentCeiling ≤ Text.numeralValue (readDigits digits)
      · rw [if_neg (Nat.not_lt.mpr hceiling), if_pos hceiling]
      · rw [if_pos (Nat.lt_of_not_le hceiling), if_neg hceiling, Text.numeralValue_snoc,
          (readDigits_cases digits).resolve_right hceiling]

/-- All digits are read if those before the last one do not reach the ceiling. -/
theorem readDigits_eq_self {digits : Text}
    (h : Text.numeralValue digits < 10 * exponentCeiling) : readDigits digits = digits := by
  rcases List.eq_nil_or_concat digits with rfl | ⟨front, c, rfl⟩
  · rfl
  · rw [List.concat_eq_append] at h ⊢
    rw [Text.numeralValue_snoc] at h
    rw [readDigits_snoc, if_neg]
    intro hceiling
    have := Text.numeralValue_le_of_isPrefix (prefix_readDigits front)
    omega

end Decimal

/-! ## Numbers in JSON -/

/-- The exponent of a number: a letter, at most one sign, and digits. -/
structure JsonExponent where
  letter : Char
  sign : Text
  digits : Text
  letter_mem : letter ∈ ['e', 'E']
  sign_mem : sign ∈ [[], ['+'], ['-']]
  numeral : Text.isNumeral digits = true

namespace JsonExponent

def toText (e : JsonExponent) : Text := e.letter :: (e.sign ++ e.digits)

def value (e : JsonExponent) : Int :=
  if e.sign = ['-'] then -(Text.numeralValue e.digits : Int) else Text.numeralValue e.digits

def read (e : JsonExponent) : JsonExponent where
  letter := e.letter
  sign := e.sign
  digits := Decimal.readDigits e.digits
  letter_mem := e.letter_mem
  sign_mem := e.sign_mem
  numeral := by
    obtain ⟨hnonempty, hdigits⟩ := Text.isNumeral_iff.mp e.numeral
    refine Text.isNumeral_iff.mpr ⟨fun hempty => ?_, fun c hc =>
      hdigits c ((Decimal.prefix_readDigits e.digits).subset hc)⟩
    -- no digits at all would not reach the ceiling
    rcases Decimal.readDigits_cases e.digits with hall | hceiling
    · exact hnonempty (hall ▸ hempty)
    · rw [hempty] at hceiling
      exact absurd hceiling (by decide)

theorem read_eq_self {e : JsonExponent}
    (h : Text.numeralValue e.digits < 10 * Decimal.exponentCeiling) : e.read = e := by
  rcases e with ⟨letter, sign, digits, _, _, _⟩
  simp only [read, mk.injEq, true_and]
  exact Decimal.readDigits_eq_self h

/-- The exponent comes to the number of the digits that are read. -/
theorem scale?_toText (e : JsonExponent) : Decimal.scale? e.toText = some e.read.value := by
  have hletter : e.letter = 'e' ∨ e.letter = 'E' := by simpa using e.letter_mem
  have hsplit := Text.splitSign_append e.sign_mem e.numeral
  unfold Decimal.scale? toText value read
  simp only [hletter, if_true, hsplit, e.numeral, Decimal.exponentValue_eq_readDigits,
    decide_eq_true_eq]

end JsonExponent

/-- A number in JSON: at most a minus sign, digits without a zero in front, at most a point
with digits after it, and at most an exponent. -/
structure JsonNumber where
  negative : Bool
  whole : Text
  places : Text
  exponent : Option JsonExponent
  whole_numeral : Text.isNumeral whole = true
  whole_plain : whole = ['0'] ∨ whole.head? ≠ some '0'
  places_digits : ∀ c ∈ places, c.isDigit = true

namespace JsonNumber

def pointed : Text → Text
  | [] => []
  | places => '.' :: places

def scaled : Option JsonExponent → Text
  | none => []
  | some e => e.toText

def size (n : JsonNumber) : Text := n.whole ++ (pointed n.places ++ scaled n.exponent)

def toText (n : JsonNumber) : Text := if n.negative then '-' :: n.size else n.size

def scale (n : JsonNumber) : Int := (n.exponent.map JsonExponent.value).getD 0

def decimal (n : JsonNumber) : Decimal :=
  ⟨n.negative, Text.numeralValue (n.whole ++ n.places), n.scale - n.places.length⟩

/-- The exponent is below the ceiling of exponents that are read exactly. -/
def Moderate (n : JsonNumber) : Prop :=
  ∀ e ∈ n.exponent, Text.numeralValue e.digits < Decimal.exponentCeiling

variable (n : JsonNumber)

theorem exists_whole_cons : ∃ c rest, n.whole = c :: rest ∧ c.isDigit = true := by
  obtain ⟨hnonempty, hdigits⟩ := Text.isNumeral_iff.mp n.whole_numeral
  obtain ⟨c, rest, hwhole⟩ := List.exists_cons_of_ne_nil hnonempty
  exact ⟨c, rest, hwhole, hdigits c (by simp [hwhole])⟩

theorem head?_scaled (e : Option JsonExponent) :
    ∀ c ∈ (scaled e).head?, c.isDigit = false := by
  intro c hc
  cases e with
  | none => cases hc
  | some e =>
      have hletter : e.letter = 'e' ∨ e.letter = 'E' := by simpa using e.letter_mem
      cases hc
      rcases hletter with hletter | hletter
      · rw [hletter]; decide
      · rw [hletter]; decide

end JsonNumber

/-! ## Decimal literals -/

/-- A decimal literal: at most one sign, digits, at most a point with any digits after it, and
at most an exponent. There is a digit before the point or after it. -/
structure DecimalLiteral where
  sign : Text
  whole : Text
  fraction : Option Text
  exponent : Option JsonExponent
  sign_mem : sign ∈ [[], ['+'], ['-']]
  whole_digits : ∀ c ∈ whole, c.isDigit = true
  fraction_digits : ∀ places ∈ fraction, ∀ c ∈ places, c.isDigit = true
  nonempty : whole ≠ [] ∨ ∃ places ∈ fraction, places ≠ []

namespace DecimalLiteral

def pointed : Option Text → Text
  | none => []
  | some places => '.' :: places

def size (l : DecimalLiteral) : Text :=
  l.whole ++ (pointed l.fraction ++ JsonNumber.scaled l.exponent)

def toText (l : DecimalLiteral) : Text := l.sign ++ l.size

def negative (l : DecimalLiteral) : Bool := l.sign = ['-']

def places (l : DecimalLiteral) : Text := l.fraction.getD []

def scale (l : DecimalLiteral) : Int := (l.exponent.map JsonExponent.value).getD 0

def decimal (l : DecimalLiteral) : Decimal :=
  ⟨l.negative, Text.numeralValue (l.whole ++ l.places), l.scale - l.places.length⟩

def read (l : DecimalLiteral) : DecimalLiteral :=
  { l with exponent := l.exponent.map JsonExponent.read }

variable (l : DecimalLiteral)

theorem splitSign_toText : Text.splitSign l.toText = (l.negative, l.size) := by
  have hsign : l.sign = [] ∨ l.sign = ['+'] ∨ l.sign = ['-'] := by simpa using l.sign_mem
  rcases hsign with hsign | hsign | hsign
  · rw [toText, negative, hsign, List.nil_append, size]
    -- a digit or the point comes first
    have hdigits := l.whole_digits
    have hnonempty := l.nonempty
    generalize l.whole = whole at hdigits hnonempty ⊢
    cases whole with
    | cons c rest => exact Text.splitSign_of_isDigit (hdigits c List.mem_cons_self) _
    | nil =>
        obtain ⟨places, hplaces, _⟩ := hnonempty.resolve_left fun hne => hne rfl
        rw [show l.fraction = some places from hplaces]
        rfl
  · rw [toText, negative, hsign]
    rfl
  · rw [toText, negative, hsign]
    rfl

theorem head?_size_rest (fraction : Option Text) (e : Option JsonExponent) :
    ∀ c ∈ (pointed fraction ++ JsonNumber.scaled e).head?, c.isDigit = false := by
  cases fraction with
  | none => exact JsonNumber.head?_scaled e
  | some places =>
      rintro _ ⟨⟩
      rfl

theorem splitPlaces_pointed {fraction : Option Text}
    (h : ∀ places ∈ fraction, ∀ c ∈ places, c.isDigit = true) (e : Option JsonExponent) :
    Decimal.splitPlaces (pointed fraction ++ JsonNumber.scaled e) =
      (fraction.getD [], JsonNumber.scaled e) := by
  cases fraction with
  | none =>
      cases e with
      | none => rfl
      | some e =>
          -- the letter of the exponent is no point
          have hletter : e.letter = 'e' ∨ e.letter = 'E' := by simpa using e.letter_mem
          show Decimal.splitPlaces (e.letter :: (e.sign ++ e.digits)) = ([], _)
          rcases hletter with hletter | hletter
          · rw [hletter]
            simp [Decimal.splitPlaces, JsonNumber.scaled, JsonExponent.toText, hletter]
          · rw [hletter]
            simp [Decimal.splitPlaces, JsonNumber.scaled, JsonExponent.toText, hletter]
  | some places => exact Text.span_isDigit (h places rfl) (JsonNumber.head?_scaled e)

/-- **A decimal literal is read as what its parts say**, with the digits of the exponent that
are read. -/
theorem ofText?_toText : Decimal.ofText? l.toText = some l.read.decimal := by
  have hwhole := Text.span_isDigit l.whole_digits (head?_size_rest l.fraction l.exponent)
  have hplaces := splitPlaces_pointed l.fraction_digits l.exponent
  have hscale : Decimal.scale? (JsonNumber.scaled l.exponent) = some l.read.scale := by
    unfold scale read
    cases l.exponent with
    | none => rfl
    | some e => exact e.scale?_toText
  have hnonempty : (l.whole.isEmpty && (l.fraction.getD []).isEmpty) = false := by
    rw [Bool.and_eq_false_iff, List.isEmpty_eq_false_iff, List.isEmpty_eq_false_iff]
    refine l.nonempty.imp_right ?_
    rintro ⟨places, hplaces, hne⟩
    rwa [show l.fraction = some places from hplaces]
  unfold Decimal.ofText?
  simp only [splitSign_toText, size, hwhole, hplaces, hnonempty, Bool.false_eq_true, if_false,
    hscale]
  rfl

/-- An exponent whose digits but the last do not reach the ceiling is read as it is. -/
theorem read_eq_self {l : DecimalLiteral}
    (h : ∀ e ∈ l.exponent, Text.numeralValue e.digits < 10 * Decimal.exponentCeiling) :
    l.read = l := by
  rcases l with ⟨sign, whole, fraction, exponent, _, _, _, _⟩
  simp only [read, mk.injEq, true_and]
  cases exponent with
  | none => rfl
  | some e => exact congrArg some (JsonExponent.read_eq_self (h e rfl))

/-! ### Nothing else is read -/

theorem exists_fraction (t : Text) :
    ∃ fraction : Option Text, (∀ places ∈ fraction, ∀ c ∈ places, c.isDigit = true) ∧
      (Decimal.splitPlaces t).1 = fraction.getD [] ∧
        pointed fraction ++ (Decimal.splitPlaces t).2 = t := by
  unfold Decimal.splitPlaces
  split
  · next rest =>
      rw [List.span_eq_takeWhile_dropWhile]
      refine ⟨some (rest.takeWhile Char.isDigit), ?_, rfl, ?_⟩
      · rintro _ ⟨⟩ c hc
        exact List.mem_takeWhile_imp hc
      · exact congrArg ('.' :: ·) List.takeWhile_append_dropWhile
  · exact ⟨none, by rintro _ ⟨⟩, rfl, rfl⟩

theorem exists_exponent {t : Text} {scale : Int} (h : Decimal.scale? t = some scale) :
    ∃ e : Option JsonExponent, JsonNumber.scaled e = t := by
  cases t with
  | nil => exact ⟨none, rfl⟩
  | cons letter rest =>
      obtain ⟨sign, hsign, hrest⟩ := Text.exists_sign rest
      rw [Decimal.scale?] at h
      split_ifs at h with hletter
      rcases hsplit : Text.splitSign rest with ⟨negative, digits⟩
      rw [hsplit] at h hrest
      dsimp only at h hrest
      by_cases hnumeral : Text.isNumeral digits = true
      · refine ⟨some ⟨letter, sign, digits, by simpa using hletter, hsign, hnumeral⟩, ?_⟩
        exact congrArg (letter :: ·) hrest
      · rw [if_neg hnumeral] at h
        cases h

theorem exists_toText_eq {t : Text} {d : Decimal} (h : Decimal.ofText? t = some d) :
    ∃ l : DecimalLiteral, l.toText = t := by
  unfold Decimal.ofText? at h
  -- the reader's splits give the parts, one after the other
  obtain ⟨sign, hsign, ht⟩ := Text.exists_sign t
  rcases hsplit : Text.splitSign t with ⟨negative, body⟩
  rw [hsplit] at h ht
  dsimp only at h ht
  rw [List.span_eq_takeWhile_dropWhile] at h
  dsimp only at h
  obtain ⟨fraction, hdigits, hplaces, hrest⟩ := exists_fraction (body.dropWhile Char.isDigit)
  rcases hfraction : Decimal.splitPlaces (body.dropWhile Char.isDigit) with ⟨places, rest⟩
  rw [hfraction] at h hplaces hrest
  dsimp only at h hplaces hrest
  split_ifs at h with hempty
  cases hscale : Decimal.scale? rest with
  | none => rw [hscale] at h; cases h
  | some scale =>
      obtain ⟨exponent, hexponent⟩ := exists_exponent hscale
      refine ⟨⟨sign, body.takeWhile Char.isDigit, fraction, exponent, hsign,
        fun c hc => List.mem_takeWhile_imp hc, hdigits, ?_⟩, ?_⟩
      · rw [Bool.and_eq_true, List.isEmpty_iff, List.isEmpty_iff, not_and_or] at hempty
        refine hempty.imp_right fun hne => ?_
        cases fraction with
        | none => exact absurd hplaces hne
        | some digits => exact ⟨digits, rfl, fun hnil => hne (hplaces.trans hnil)⟩
      · show sign ++ (body.takeWhile Char.isDigit ++
          (pointed fraction ++ JsonNumber.scaled exponent)) = t
        rw [hexponent, hrest, List.takeWhile_append_dropWhile, ht]

/-- **Only decimal literals are read**, and each as what its parts say. -/
theorem ofText?_eq_some_iff {t : Text} {d : Decimal} :
    Decimal.ofText? t = some d ↔ ∃ l : DecimalLiteral, l.toText = t ∧ l.read.decimal = d := by
  constructor
  · intro h
    obtain ⟨l, rfl⟩ := exists_toText_eq h
    rw [ofText?_toText] at h
    exact ⟨l, rfl, Option.some.inj h⟩
  · rintro ⟨l, rfl, rfl⟩
    exact l.ofText?_toText

end DecimalLiteral

namespace JsonNumber

variable (n : JsonNumber)

def literal : DecimalLiteral where
  sign := if n.negative then ['-'] else []
  whole := n.whole
  fraction := if n.places = [] then none else some n.places
  exponent := n.exponent
  sign_mem := by split_ifs <;> simp
  whole_digits := (Text.isNumeral_iff.mp n.whole_numeral).2
  fraction_digits := by
    intro places hplaces
    split_ifs at hplaces
    · cases hplaces
    · cases hplaces
      exact n.places_digits
  nonempty := Or.inl (Text.isNumeral_iff.mp n.whole_numeral).1

theorem toText_literal : n.literal.toText = n.toText := by
  have hpointed : DecimalLiteral.pointed n.literal.fraction = pointed n.places := by
    show DecimalLiteral.pointed (if n.places = [] then none else some n.places) = _
    cases n.places with
    | nil => rfl
    | cons c rest => rfl
  have hsize : n.literal.size = n.size := by
    rw [DecimalLiteral.size, hpointed]
    rfl
  rw [DecimalLiteral.toText, hsize, toText]
  show (if n.negative then ['-'] else []) ++ n.size = _
  cases n.negative with
  | false => rfl
  | true => rfl

theorem decimal_literal : n.literal.decimal = n.decimal := by
  have hnegative : n.literal.negative = n.negative := by
    show decide ((if n.negative then ['-'] else []) = ['-']) = n.negative
    cases n.negative with
    | false => rfl
    | true => rfl
  have hplaces : n.literal.places = n.places := by
    show (if n.places = [] then none else some n.places).getD [] = n.places
    cases n.places with
    | nil => rfl
    | cons c rest => rfl
  rw [DecimalLiteral.decimal, hnegative, hplaces]
  rfl

/-- **A number in JSON is a decimal literal** and is read as what its parts say. -/
theorem ofText?_toText (h : n.Moderate) : Decimal.ofText? n.toText = some n.decimal := by
  have hread : n.literal.read = n.literal := DecimalLiteral.read_eq_self fun e he => by
    have := h e he
    omega
  rw [← toText_literal, DecimalLiteral.ofText?_toText, hread, decimal_literal]

/-! ### Characters -/

/-- The characters that numbers are written with. -/
def isNumberChar (c : Char) : Bool := c.isDigit || ['-', '+', '.', 'e', 'E'].contains c

theorem isNumberChar_of_isDigit {c : Char} (h : c.isDigit = true) : isNumberChar c = true := by
  rw [isNumberChar, h]
  rfl

end JsonNumber

theorem JsonExponent.isNumberChar_of_mem_toText {e : JsonExponent} {c : Char}
    (h : c ∈ e.toText) : JsonNumber.isNumberChar c = true := by
  have hletter : e.letter = 'e' ∨ e.letter = 'E' := by simpa using e.letter_mem
  have hsign : e.sign = [] ∨ e.sign = ['+'] ∨ e.sign = ['-'] := by simpa using e.sign_mem
  rcases List.mem_cons.mp h with rfl | h
  · rcases hletter with hletter | hletter
    · rw [hletter]; rfl
    · rw [hletter]; rfl
  · rcases List.mem_append.mp h with h | h
    · rcases hsign with hsign | hsign | hsign
      · rw [hsign] at h; cases h
      · rw [hsign] at h; cases List.mem_singleton.mp h; rfl
      · rw [hsign] at h; cases List.mem_singleton.mp h; rfl
    · exact JsonNumber.isNumberChar_of_isDigit ((Text.isNumeral_iff.mp e.numeral).2 c h)

namespace DecimalLiteral

theorem isNumberChar_of_mem_toText {l : DecimalLiteral} {c : Char} (h : c ∈ l.toText) :
    JsonNumber.isNumberChar c = true := by
  have hsign : l.sign = [] ∨ l.sign = ['+'] ∨ l.sign = ['-'] := by simpa using l.sign_mem
  rcases List.mem_append.mp h with h | h
  · rcases hsign with hsign | hsign | hsign
    · rw [hsign] at h; cases h
    · rw [hsign] at h; cases List.mem_singleton.mp h; rfl
    · rw [hsign] at h; cases List.mem_singleton.mp h; rfl
  rcases List.mem_append.mp h with h | h
  · exact JsonNumber.isNumberChar_of_isDigit (l.whole_digits c h)
  rcases List.mem_append.mp h with h | h
  · cases hfraction : l.fraction with
    | none => rw [hfraction] at h; cases h
    | some places =>
        rw [hfraction] at h
        rcases List.mem_cons.mp h with rfl | h
        · rfl
        · exact JsonNumber.isNumberChar_of_isDigit (l.fraction_digits places hfraction c h)
  · cases hexponent : l.exponent with
    | none => rw [hexponent] at h; cases h
    | some e =>
        rw [hexponent] at h
        exact JsonExponent.isNumberChar_of_mem_toText h

theorem exists_isDigit (l : DecimalLiteral) : ∃ c ∈ l.toText, c.isDigit = true := by
  rcases l.nonempty with hwhole | ⟨places, hplaces, hne⟩
  · obtain ⟨c, rest, hc⟩ := List.exists_cons_of_ne_nil hwhole
    have hmem : c ∈ l.whole := hc ▸ List.mem_cons_self
    exact ⟨c, by simp [toText, size, hmem], l.whole_digits c hmem⟩
  · obtain ⟨c, rest, hc⟩ := List.exists_cons_of_ne_nil hne
    have hmem : c ∈ places := hc ▸ List.mem_cons_self
    have hfraction : l.fraction = some places := hplaces
    exact ⟨c, by simp [toText, size, hfraction, pointed, hmem],
      l.fraction_digits places hplaces c hmem⟩

end DecimalLiteral

namespace JsonNumber

variable (n : JsonNumber)

/-! ### Words -/

theorem isNumberChar_of_mem_toText {c : Char} (h : c ∈ n.toText) : isNumberChar c = true := by
  rw [← toText_literal] at h
  exact DecimalLiteral.isNumberChar_of_mem_toText h

theorem isBlank_of_isNumberChar {c : Char} (h : isNumberChar c = true) : isBlank c = false := by
  have hrange : 0x2B ≤ c.toNat ∧ c.toNat < 0x80 := by
    rcases Bool.or_eq_true _ _ ▸ h with hdigit | hmember
    · have hdigit : 48 ≤ c.val ∧ c.val ≤ 57 := by simpa [Char.isDigit] using hdigit
      have hleast : 48 ≤ c.toNat := hdigit.1
      have hgreatest : c.toNat ≤ 57 := hdigit.2
      omega
    · have hmember : c ∈ ['-', '+', '.', 'e', 'E'] := by simpa using hmember
      have hall : (['-', '+', '.', 'e', 'E'].all fun c =>
          decide (0x2B ≤ c.toNat ∧ c.toNat < 0x80)) = true := by decide
      exact of_decide_eq_true (List.all_eq_true.mp hall c hmember)
  simp only [isBlank, blankRanges, List.any_cons, List.any_nil, Bool.or_false,
    Bool.or_eq_false_iff, Bool.and_eq_false_iff, decide_eq_false_iff_not]
  omega

theorem toText_ne_nil : n.toText ≠ [] := by
  obtain ⟨c, rest, hwhole, _⟩ := n.exists_whole_cons
  unfold toText size
  cases n.negative with
  | true => exact List.cons_ne_nil _ _
  | false =>
      rw [if_neg Bool.false_ne_true, hwhole]
      exact List.cons_ne_nil _ _

/-- **A number in JSON is one word.** -/
theorem words_toText : words n.toText = [n.toText] := by
  have hclean : ∀ c ∈ n.toText, isBlank c = false := fun c hc =>
    isBlank_of_isNumberChar (n.isNumberChar_of_mem_toText hc)
  have hempty : n.toText.isEmpty = false := by
    rw [List.isEmpty_eq_false_iff]
    exact n.toText_ne_nil
  rw [words, List.splitOnP_eq_singleton hclean, List.filter_singleton, hempty]
  rfl

/-- A number in JSON is no `null`. -/
theorem toText_ne_null : n.toText ≠ "null".toList := by
  intro h
  have hn : 'n' ∈ n.toText := by rw [h]; decide
  have := n.isNumberChar_of_mem_toText hn
  revert this
  decide

end JsonNumber

end RadarProfile
