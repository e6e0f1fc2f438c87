import Mathlib.Tactic.SplitIfs
import RadarProfile.Line.Reader
import RadarProfile.Proofs.Lines

set_option autoImplicit false

/-! # What decoding keeps

An ASCII byte stands for itself wherever it comes, because no sequence that has begun admits
it (`step_of_lt`), and no other byte comes to an ASCII character (`eq_of_mem_step`). So a
newline among the bytes is a newline of the text and the other way round: decoding the lines
that bytes are cut into gives the lines that the decoded text is cut into (`cut_decode`).
Text that was encoded is decoded to itself (`decode_encode`), and an ASCII text is a part of
what is decoded exactly if its bytes are a part of the bytes (`infix_decode_iff`). -/

namespace RadarProfile.Utf8

/-! ## First bytes -/

theorem lead_of_lt {b : Nat} (h : b < 0x80) : lead b = ([Char.ofNat b], none) := by
  rw [lead, if_pos h]

theorem lead_of_stray {b : Nat} (h : 0x80 ≤ b ∧ b < 0xC2 ∨ 0xF5 ≤ b) :
    lead b = ([replacement], none) := by
  rcases h with h | h
  · rw [lead, if_neg (by omega), if_pos h.2]
  · rw [lead, if_neg (by omega), if_neg (by omega), if_neg (by omega), if_neg (by omega),
      if_neg (by omega), if_neg (by omega), if_neg (by omega), if_neg (by omega),
      if_neg (by omega)]

theorem lead_of_two {b : Nat} (h : 0xC2 ≤ b ∧ b < 0xE0) :
    lead b = ([], some ⟨b - 0xC0, 0x80, 0xBF, 0⟩) := by
  rw [lead, if_neg (by omega), if_neg (by omega), if_pos h.2]

/-- The first of three bytes. What may follow depends on it, so that no character is written
longer than it has to be and none is a surrogate. -/
theorem lead_of_three {b : Nat} (h : 0xE0 ≤ b ∧ b < 0xF0) :
    lead b = ([], some ⟨b - 0xE0, if b = 0xE0 then 0xA0 else 0x80,
      if b = 0xED then 0x9F else 0xBF, 1⟩) := by
  rw [lead, if_neg (by omega), if_neg (by omega), if_neg (by omega)]
  by_cases hlow : b = 0xE0
  · subst hlow
    rfl
  by_cases hhigh : b = 0xED
  · subst hhigh
    rfl
  rw [if_neg hlow, if_neg hhigh, if_pos h.2, if_neg hlow, if_neg hhigh]

/-- The first of four bytes. What may follow depends on it, so that no character is written
longer than it has to be and none is beyond the last one. -/
theorem lead_of_four {b : Nat} (h : 0xF0 ≤ b ∧ b < 0xF5) :
    lead b = ([], some ⟨b - 0xF0, if b = 0xF0 then 0x90 else 0x80,
      if b = 0xF4 then 0x8F else 0xBF, 2⟩) := by
  rw [lead, if_neg (by omega), if_neg (by omega), if_neg (by omega), if_neg (by omega),
    if_neg (by omega), if_neg (by omega)]
  by_cases hlow : b = 0xF0
  · subst hlow
    rfl
  by_cases hhigh : b = 0xF4
  · subst hhigh
    rfl
  rw [if_neg hlow, if_pos (by omega), if_neg hlow, if_neg hhigh]

/-! ## Sequences that have begun -/

/-- What holds of every sequence that has begun: the next byte it admits is not ASCII, and
neither is the character that it will come to. -/
def Owed.Sound (owed : Owed) : Prop :=
  0x80 ≤ owed.low ∧
    match owed.further with
    | 0 => 2 ≤ owed.bits
    | _ + 1 => 2 ≤ owed.bits * 64 + (owed.low - 0x80)

def Sound : Option Owed → Prop
  | none => True
  | some owed => owed.Sound

theorem sound_none : Sound none := trivial

/-- **What a byte outside every sequence does**: it is an ASCII character, it is replaced, or
it begins a sound sequence. -/
theorem lead_cases (b : Nat) :
    (lead b = ([Char.ofNat b], none) ∧ b < 0x80) ∨ lead b = ([replacement], none) ∨
      ∃ owed : Owed, lead b = ([], some owed) ∧ owed.Sound := by
  by_cases hascii : b < 0x80
  · exact Or.inl ⟨lead_of_lt hascii, hascii⟩
  refine Or.inr ?_
  by_cases hstray : b < 0xC2
  · exact Or.inl (lead_of_stray (Or.inl ⟨by omega, hstray⟩))
  by_cases htwo : b < 0xE0
  · refine Or.inr ⟨_, lead_of_two ⟨by omega, htwo⟩, Nat.le_refl _, ?_⟩
    dsimp only
    omega
  by_cases hthree : b < 0xF0
  · refine Or.inr ⟨_, lead_of_three ⟨by omega, hthree⟩, ?_, ?_⟩
    · dsimp only
      split <;> omega
    · dsimp only
      split <;> omega
  by_cases hfour : b < 0xF5
  · refine Or.inr ⟨_, lead_of_four ⟨by omega, hfour⟩, ?_, ?_⟩
    · dsimp only
      split <;> omega
    · dsimp only
      split <;> omega
  · exact Or.inl (lead_of_stray (Or.inr (by omega)))

theorem sound_lead (b : Nat) : Sound (lead b).2 := by
  rcases lead_cases b with ⟨hlead, _⟩ | hlead | ⟨owed, hlead, hsound⟩
  · rw [hlead]
    exact sound_none
  · rw [hlead]
    exact sound_none
  · rw [hlead]
    exact hsound

/-- **A sequence stays sound** from byte to byte. -/
theorem sound_step {before : Option Owed} (h : Sound before) (b : Nat) :
    Sound (step before b).2 := by
  cases before with
  | none => exact sound_lead b
  | some begun =>
      obtain ⟨hlow, hbits⟩ := h
      rw [step]
      split_ifs with hadmitted
      · rcases hfurther : begun.further with _ | further
        · exact trivial
        · -- with a byte admitted there are enough bits for the character not to be ASCII
          simp only [hfurther] at hbits
          refine ⟨Nat.le_refl _, ?_⟩
          cases further with
          | zero => dsimp only; omega
          | succ further => dsimp only; omega
      · exact sound_lead b

/-! ## ASCII -/

theorem toNat_ofNat_of_valid {n : Nat} (h : n.isValidChar) : (Char.ofNat n).toNat = n := by
  rw [Char.ofNat, dif_pos h]
  rfl

theorem toNat_ofNat_of_lt {b : Nat} (h : b < 0x80) : (Char.ofNat b).toNat = b :=
  toNat_ofNat_of_valid (Or.inl (by omega))

/-- A number beyond ASCII is that of no ASCII character, but for the null character, which
stands for all numbers that are no character's. -/
theorem eq_null_of_toNat_lt {n : Nat} (hn : 0x80 ≤ n) (h : (Char.ofNat n).toNat < 0x80) :
    Char.ofNat n = '\x00' := by
  by_cases hvalid : n.isValidChar
  · rw [toNat_ofNat_of_valid hvalid] at h
    omega
  · rw [Char.ofNat, dif_neg hvalid]
    rfl

/-- **An ASCII byte stands for itself**, and ends whatever sequence it comes into. -/
theorem step_of_lt {before : Option Owed} (hbefore : Sound before) {b : Nat}
    (h : b < 0x80) : step before b = (finish before ++ [Char.ofNat b], none) := by
  cases before with
  | none => exact lead_of_lt h
  | some owed =>
      have hlow : 0x80 ≤ owed.low := hbefore.1
      rw [step, if_neg (by omega), lead_of_lt h]
      rfl

theorem replacement_ne {c : Char} (h : c.toNat < 0x80) : c ≠ replacement := by
  rintro rfl
  exact absurd h (by decide)

theorem eq_of_mem_lead {b : Nat} {c : Char} (hmem : c ∈ (lead b).1) (hc : c.toNat < 0x80) :
    c = Char.ofNat b ∧ b < 0x80 := by
  rcases lead_cases b with ⟨hlead, hb⟩ | hlead | ⟨owed, hlead, _⟩
  · rw [hlead] at hmem
    exact ⟨List.mem_singleton.mp hmem, hb⟩
  · rw [hlead] at hmem
    exact absurd (List.mem_singleton.mp hmem) (replacement_ne hc)
  · rw [hlead] at hmem
    exact absurd hmem List.not_mem_nil

/-- **An ASCII character comes of its own byte** and of no other. -/
theorem eq_of_mem_step {before : Option Owed} (hbefore : Sound before) {b : Nat} {c : Char}
    (hmem : c ∈ (step before b).1) (hc : c.toNat < 0x80) (hnull : c ≠ '\x00') :
    c = Char.ofNat b ∧ b < 0x80 := by
  cases before with
  | none => exact eq_of_mem_lead hmem hc
  | some owed =>
      obtain ⟨hlow, hbits⟩ := hbefore
      rw [step] at hmem
      split_ifs at hmem with hadmitted
      · rcases hfurther : owed.further with _ | further
        · simp only [hfurther] at hmem hbits
          -- the character that the sequence comes to is not ASCII
          rw [List.mem_singleton] at hmem
          have hn : 0x80 ≤ owed.bits * 64 + (b - 0x80) := by omega
          exact absurd (hmem.trans (eq_null_of_toNat_lt hn (hmem ▸ hc))) hnull
        · simp only [hfurther] at hmem
          exact absurd hmem List.not_mem_nil
      · rcases List.mem_cons.mp hmem with h | h
        · exact absurd h (replacement_ne hc)
        · exact eq_of_mem_lead h hc

/-- **An ASCII byte ends what stands before it**, so what comes after it is decoded afresh. -/
theorem decodeFrom_append_ascii {before : Option Owed} (hbefore : Sound before) {b : UInt8}
    (h : b.toNat < 0x80) (bytes rest : List UInt8) :
    decodeFrom before (bytes ++ b :: rest) =
      decodeFrom before bytes ++ Char.ofNat b.toNat :: decode rest := by
  induction bytes generalizing before with
  | nil =>
      rw [List.nil_append, decodeFrom, decodeFrom, step_of_lt hbefore h, List.append_assoc]
      rfl
  | cons d bytes ih =>
      rw [List.cons_append, decodeFrom, decodeFrom, ih (sound_step hbefore d.toNat),
        List.append_assoc]

theorem not_mem_finish {before : Option Owed} {c : Char} (hc : c.toNat < 0x80) :
    c ∉ finish before := by
  cases before with
  | none => exact List.not_mem_nil
  | some owed => exact fun hmem => replacement_ne hc (List.mem_singleton.mp hmem)

/-- A byte that gives an ASCII character is its own, and gives it after the replacement of what
was owed. -/
theorem step_eq_of_ascii {before : Option Owed} (hbefore : Sound before) {b : Nat}
    {front back : Text} {c : Char} (hc : c.toNat < 0x80) (hnull : c ≠ '\x00')
    (h : (step before b).1 = front ++ c :: back) :
    b = c.toNat ∧ step before b = (front ++ [c], none) ∧ finish before = front ∧ back = [] := by
  have hmem : c ∈ (step before b).1 := by
    rw [h]
    exact List.mem_append_right _ List.mem_cons_self
  obtain ⟨rfl, hlt⟩ := eq_of_mem_step hbefore hmem hc hnull
  rw [step_of_lt hbefore hlt] at h ⊢
  have hfront : finish before = front ∧ back = [] := by
    rcases List.append_eq_append_iff.mp h with ⟨extra, rfl, hextra⟩ | ⟨extra, hextra, hback⟩
    · cases extra with
      | nil => exact ⟨(List.append_nil _).symm, (List.cons.inj hextra).2.symm⟩
      | cons d extra => simp at hextra
    · cases extra with
      | nil => exact ⟨hextra.trans (List.append_nil _), (List.cons.inj hback).2⟩
      | cons d extra =>
          -- the character would be among what is replaced
          obtain rfl := (List.cons.inj hback).1
          have hfinish : Char.ofNat b ∈ finish before := by simp [hextra]
          exact absurd hfinish (not_mem_finish hc)
  exact ⟨(toNat_ofNat_of_lt hlt).symm, by rw [hfront.1], hfront⟩

/-- **An ASCII character of the text is found among the bytes**, and parts them where it parts
the text. -/
theorem exists_byte_of_decodeFrom_eq {before : Option Owed} (hbefore : Sound before)
    {bytes : List UInt8} {front back : Text} {c : Char} (hc : c.toNat < 0x80)
    (hnull : c ≠ '\x00') (h : decodeFrom before bytes = front ++ c :: back) :
    ∃ first rest, bytes = first ++ UInt8.ofNat c.toNat :: rest ∧
      decodeFrom before first = front ∧ decode rest = back := by
  induction bytes generalizing before front with
  | nil =>
      have hmem : c ∈ finish before := by
        rw [← show decodeFrom before [] = finish before from rfl, h]
        exact List.mem_append_right _ List.mem_cons_self
      exact absurd hmem (not_mem_finish hc)
  | cons b bytes ih =>
      rw [decodeFrom] at h
      rcases List.append_eq_append_iff.mp h with ⟨later, rfl, hlater⟩ | ⟨now, hnow, hback⟩
      · -- the character comes of a later byte
        obtain ⟨first, rest, rfl, hfirst, hrest⟩ := ih (sound_step hbefore b.toNat) hlater
        exact ⟨b :: first, rest, rfl, by rw [decodeFrom, hfirst], hrest⟩
      cases now with
      | nil =>
          -- it is the first one that comes of a later byte
          have hlater : decodeFrom (step before b.toNat).2 bytes = [] ++ c :: back := hback.symm
          obtain ⟨first, rest, rfl, hfirst, hrest⟩ := ih (sound_step hbefore b.toNat) hlater
          refine ⟨b :: first, rest, rfl, ?_, hrest⟩
          rw [decodeFrom, hfirst, hnow, List.append_nil, List.append_nil]
      | cons d now =>
          obtain ⟨rfl, rfl⟩ := List.cons.inj hback
          obtain ⟨hb, hstep, hfinish, rfl⟩ := step_eq_of_ascii hbefore hc hnull hnow
          refine ⟨[], bytes, ?_, hfinish, ?_⟩
          · rw [← hb, UInt8.ofNat_toNat]
            rfl
          · rw [hstep]
            rfl

/-! ## Newlines -/

/-- Bytes without a newline are decoded to text without one. -/
theorem newline_not_mem_decodeFrom {before : Option Owed} (hbefore : Sound before)
    {bytes : List UInt8} (h : Reader.newline ∉ bytes) : '\n' ∉ decodeFrom before bytes := by
  intro hmem
  obtain ⟨front, back, htext⟩ := List.append_of_mem hmem
  obtain ⟨first, rest, rfl, -, -⟩ :=
    exists_byte_of_decodeFrom_eq hbefore (by decide) (by decide) htext
  exact h (List.mem_append_right _ List.mem_cons_self)

theorem newline_not_mem_decode {bytes : List UInt8} (h : Reader.newline ∉ bytes) :
    '\n' ∉ decode bytes :=
  newline_not_mem_decodeFrom sound_none h

/-- A newline, like every ASCII byte, ends what stands before it. -/
theorem decodeFrom_append_newline {before : Option Owed} (hbefore : Sound before)
    (bytes rest : List UInt8) :
    decodeFrom before (bytes ++ Reader.newline :: rest) =
      decodeFrom before bytes ++ '\n' :: decode rest :=
  decodeFrom_append_ascii hbefore (by decide) bytes rest

theorem decode_join_append (lines : List (List UInt8)) (rest : List UInt8) :
    decode (Lines.join Reader.newline lines ++ rest) =
      Lines.join '\n' (lines.map decode) ++ decode rest := by
  induction lines with
  | nil => rfl
  | cons line lines ih =>
      rw [Lines.join_cons_append, decode, decodeFrom_append_newline sound_none, ih,
        List.map_cons, Lines.join_cons_append]
      rfl

/-- **Cutting and decoding commute**: the lines of the text are the lines of the bytes,
decoded, and so is the rest. -/
theorem cut_decode (bytes : List UInt8) :
    Lines.ended '\n' (decode bytes) = (Lines.ended Reader.newline bytes).map decode ∧
      Lines.rest '\n' (decode bytes) = decode (Lines.rest Reader.newline bytes) := by
  rw [Lines.cut_iff, ← decode_join_append, Lines.join_append_rest]
  refine ⟨rfl, ?_, newline_not_mem_decode (Lines.not_mem_rest bytes)⟩
  intro line hline
  obtain ⟨row, hrow, rfl⟩ := List.mem_map.mp hline
  exact newline_not_mem_decode (Lines.not_mem_of_mem_ended hrow)

/-! ## Nothing but the empty row is decoded to nothing -/

/-- A byte gives a character, or it begins or continues a sequence. -/
theorem lead_ne (b : Nat) : lead b ≠ ([], none) := by
  rcases lead_cases b with ⟨hlead, _⟩ | hlead | ⟨owed, hlead, _⟩
  · rw [hlead]
    simp
  · rw [hlead]
    simp
  · rw [hlead]
    simp

theorem step_ne (before : Option Owed) (b : Nat) : step before b ≠ ([], none) := by
  cases before with
  | none => exact lead_ne b
  | some owed =>
      rw [step]
      split_ifs
      · cases owed.further with
        | zero => simp
        | succ further => simp
      · simp

theorem decodeFrom_eq_nil_iff {before : Option Owed} {bytes : List UInt8} :
    decodeFrom before bytes = [] ↔ before = none ∧ bytes = [] := by
  induction bytes generalizing before with
  | nil =>
      cases before with
      | none => simp [decodeFrom, finish]
      | some owed => simp [decodeFrom, finish]
  | cons b bytes ih =>
      rw [decodeFrom, List.append_eq_nil_iff, ih]
      constructor
      · rintro ⟨htext, howed, -⟩
        exact absurd (Prod.ext htext howed) (step_ne before b.toNat)
      · rintro ⟨-, h⟩
        cases h

theorem decode_eq_nil_iff {bytes : List UInt8} : decode bytes = [] ↔ bytes = [] := by
  rw [decode, decodeFrom_eq_nil_iff]
  simp

theorem all_decode (bytes : List UInt8) :
    Lines.all '\n' (decode bytes) = (Lines.all Reader.newline bytes).map decode := by
  obtain ⟨hended, hrest⟩ := cut_decode bytes
  rw [Lines.all, Lines.all, hended, hrest, List.map_append]
  congr 1
  by_cases h : Lines.rest Reader.newline bytes = []
  · rw [if_pos h, if_pos (decode_eq_nil_iff.mpr h)]
    rfl
  · rw [if_neg h, if_neg fun hnil => h (decode_eq_nil_iff.mp hnil)]
    rfl

/-! ## Text that was encoded -/

theorem step_last {bits low high b : Nat} (h : low ≤ b ∧ b ≤ high) :
    step (some ⟨bits, low, high, 0⟩) b = ([Char.ofNat (bits * 64 + (b - 0x80))], none) := by
  rw [step, if_pos h]

/-- A byte after which more are owed. -/
theorem step_more {bits low high further b : Nat} (h : low ≤ b ∧ b ≤ high) :
    step (some ⟨bits, low, high, further + 1⟩) b =
      ([], some ⟨bits * 64 + (b - 0x80), 0x80, 0xBF, further⟩) := by
  rw [step, if_pos h]

theorem toNat_continuation (n : Nat) : (UInt8.ofNat (n % 0x40 + 0x80)).toNat = n % 64 + 0x80 := by
  rw [UInt8.toNat_ofNat']
  omega

theorem decodeFrom_two {n : Nat} (h : 0x80 ≤ n ∧ n < 0x800) (bytes : List UInt8) :
    decodeFrom none (UInt8.ofNat (n / 64 % 0x20 + 0xC0) :: UInt8.ofNat (n % 0x40 + 0x80) ::
      bytes) = Char.ofNat n :: decodeFrom none bytes := by
  have hfirst : (UInt8.ofNat (n / 64 % 0x20 + 0xC0)).toNat = n / 64 + 0xC0 := by
    rw [UInt8.toNat_ofNat']
    omega
  have hbits : (n / 64 + 0xC0 - 0xC0) * 64 + (n % 64 + 0x80 - 0x80) = n := by omega
  simp only [decodeFrom, hfirst, toNat_continuation]
  rw [step, lead_of_two (by omega), step_last (by omega), hbits]
  rfl

/-- Three bytes put the bits of a number together again. The number is no surrogate, so the
second byte is one that the first admits. -/
theorem decodeFrom_three {n : Nat} (h : 0x800 ≤ n ∧ n < 0x10000) (hvalid : n.isValidChar)
    (bytes : List UInt8) :
    decodeFrom none (UInt8.ofNat (n / 4096 % 0x10 + 0xE0) ::
      UInt8.ofNat (n / 64 % 0x40 + 0x80) :: UInt8.ofNat (n % 0x40 + 0x80) :: bytes) =
        Char.ofNat n :: decodeFrom none bytes := by
  have hfirst : (UInt8.ofNat (n / 4096 % 0x10 + 0xE0)).toNat = n / 4096 + 0xE0 := by
    rw [UInt8.toNat_ofNat']
    omega
  have hbits : ((n / 4096 + 0xE0 - 0xE0) * 64 + (n / 64 % 64 + 0x80 - 0x80)) * 64 +
      (n % 64 + 0x80 - 0x80) = n := by omega
  have hsurrogate : n < 0xD800 ∨ 0xDFFF < n ∧ n < 0x110000 := hvalid
  simp only [decodeFrom, hfirst, toNat_continuation]
  rw [step, lead_of_three (by omega), step_more (by split_ifs <;> omega),
    step_last (by omega), hbits]
  rfl

theorem decodeFrom_four {n : Nat} (h : 0x10000 ≤ n ∧ n < 0x110000) (bytes : List UInt8) :
    decodeFrom none (UInt8.ofNat (n / 262144 % 0x08 + 0xF0) ::
      UInt8.ofNat (n / 4096 % 0x40 + 0x80) :: UInt8.ofNat (n / 64 % 0x40 + 0x80) ::
        UInt8.ofNat (n % 0x40 + 0x80) :: bytes) = Char.ofNat n :: decodeFrom none bytes := by
  have hfirst : (UInt8.ofNat (n / 262144 % 0x08 + 0xF0)).toNat = n / 262144 + 0xF0 := by
    rw [UInt8.toNat_ofNat']
    omega
  have hbits : (((n / 262144 + 0xF0 - 0xF0) * 64 + (n / 4096 % 64 + 0x80 - 0x80)) * 64 +
      (n / 64 % 64 + 0x80 - 0x80)) * 64 + (n % 64 + 0x80 - 0x80) = n := by omega
  simp only [decodeFrom, hfirst, toNat_continuation]
  rw [step, lead_of_four (by omega), step_more (by split_ifs <;> omega),
    step_more (by omega), step_last (by omega), hbits]
  rfl

/-- The bytes of a character are decoded to it, whatever follows. -/
theorem decodeFrom_encodeChar (c : Char) (bytes : List UInt8) :
    decodeFrom none (String.utf8EncodeChar c ++ bytes) = c :: decodeFrom none bytes := by
  have hc : Char.ofNat c.toNat = c := Char.ofNat_toNat c
  have hvalid : c.toNat < 0xD800 ∨ 0xDFFF < c.toNat ∧ c.toNat < 0x110000 := c.valid
  have hnumber : c.val.toNat = c.toNat := rfl
  unfold String.utf8EncodeChar
  rw [hnumber]
  generalize c.toNat = n at hc hvalid
  subst hc
  dsimp only
  split_ifs with h1 h2 h3
  · have hb : (UInt8.ofNat n).toNat = n := by
      rw [UInt8.toNat_ofNat']
      omega
    rw [List.singleton_append, decodeFrom, hb, step, lead_of_lt (by omega)]
    rfl
  · exact decodeFrom_two ⟨by omega, by omega⟩ bytes
  · exact decodeFrom_three ⟨by omega, by omega⟩ hvalid bytes
  · exact decodeFrom_four ⟨by omega, by omega⟩ bytes

/-- Encoded text is decoded to itself, whatever follows. -/
theorem decode_encode_append (t : Text) (bytes : List UInt8) :
    decode (encode t ++ bytes) = t ++ decode bytes := by
  induction t with
  | nil => rfl
  | cons c t ih =>
      rw [encode, List.flatMap_cons, List.append_assoc, decode, decodeFrom_encodeChar]
      exact congrArg (c :: ·) ih

/-- **Decoding undoes encoding.** -/
theorem decode_encode (t : Text) : decode (encode t) = t := by
  have h := decode_encode_append t []
  rwa [List.append_nil, decode_eq_nil_iff.mpr rfl, List.append_nil] at h

/-- Encoded text has a newline only where the text has one. -/
theorem newline_not_mem_encode {t : Text} (h : '\n' ∉ t) : Reader.newline ∉ encode t := by
  intro hmem
  obtain ⟨before, after, hbytes⟩ := List.append_of_mem hmem
  apply h
  rw [← decode_encode t, hbytes, decode, decodeFrom_append_newline sound_none]
  simp

/-! ## ASCII parts -/

theorem encode_cons_of_lt {c : Char} (h : c.toNat < 0x80) (t : Text) :
    encode (c :: t) = UInt8.ofNat c.toNat :: encode t := by
  have hvalue : c.val.toNat ≤ 0x7F := Nat.le_of_lt_succ h
  rw [encode, List.flatMap_cons, String.utf8EncodeChar, if_pos hvalue]
  rfl

def IsAscii (t : Text) : Prop := ∀ c ∈ t, c.toNat < 0x80 ∧ c ≠ '\x00'

-- the characters of the text are tested, not all characters there are
instance : DecidablePred IsAscii := fun t =>
  List.decidableBAll (fun c : Char => c.toNat < 0x80 ∧ c ≠ '\x00') t

/-- ASCII in front of the text is in front of the bytes. -/
theorem exists_append_of_decode_eq {part back : Text} (hpart : IsAscii part)
    {bytes : List UInt8} (h : decode bytes = part ++ back) :
    ∃ rest, bytes = encode part ++ rest ∧ decode rest = back := by
  induction part generalizing bytes with
  | nil => exact ⟨bytes, rfl, h⟩
  | cons c part ih =>
      obtain ⟨hc, hpart⟩ := List.forall_mem_cons.mp hpart
      have hfront : decodeFrom none bytes = [] ++ c :: (part ++ back) := h
      obtain ⟨first, rest, rfl, hfirst, hrest⟩ :=
        exists_byte_of_decodeFrom_eq sound_none hc.1 hc.2 hfront
      obtain rfl : first = [] := decode_eq_nil_iff.mp hfirst
      obtain ⟨rest, rfl, hback⟩ := ih hpart hrest
      exact ⟨rest, by rw [encode_cons_of_lt hc.1]; rfl, hback⟩

/-- **Decoding neither makes nor loses ASCII**: it is part of the text if its bytes are part of
the bytes, whatever stands around them. -/
theorem infix_decode_iff {part : Text} (hpart : IsAscii part) {bytes : List UInt8} :
    part <:+: decode bytes ↔ encode part <:+: bytes := by
  cases part with
  | nil =>
      constructor
      · exact fun _ => List.nil_infix
      · exact fun _ => List.nil_infix
  | cons c part =>
      obtain ⟨hc, hrest⟩ := List.forall_mem_cons.mp hpart
      constructor
      · -- the byte of the first character parts the bytes, and those of the others follow it
        rintro ⟨front, back, h⟩
        rw [List.append_assoc, List.cons_append] at h
        obtain ⟨first, rest, rfl, -, hdecode⟩ :=
          exists_byte_of_decodeFrom_eq sound_none hc.1 hc.2 h.symm
        obtain ⟨rest, rfl, -⟩ := exists_append_of_decode_eq hrest hdecode
        refine ⟨first, rest, ?_⟩
        rw [encode_cons_of_lt hc.1, List.append_assoc]
        rfl
      · rintro ⟨first, rest, rfl⟩
        have hb : (UInt8.ofNat c.toNat).toNat = c.toNat := by
          rw [UInt8.toNat_ofNat']
          omega
        have hlt : (UInt8.ofNat c.toNat).toNat < 0x80 := by rw [hb]; exact hc.1
        refine ⟨decode first, decode rest, Eq.symm ?_⟩
        calc decode (first ++ encode (c :: part) ++ rest)
            = decode (first ++ UInt8.ofNat c.toNat :: (encode part ++ rest)) := by
              rw [encode_cons_of_lt hc.1, List.append_assoc, List.cons_append]
          _ = decode first ++ c :: decode (encode part ++ rest) := by
              rw [decode, decodeFrom_append_ascii sound_none hlt, hb, Char.ofNat_toNat]
              rfl
          _ = decode first ++ (c :: part) ++ decode rest := by
              rw [decode_encode_append, List.append_assoc, List.cons_append]

end RadarProfile.Utf8
