import RadarProfile.Proofs.Decoding

set_option autoImplicit false

/-! # What decoding replaces

`Replaces` says what a text is of which bytes without the decoder: the UTF-8 of a character is
that character, a byte that no character begins with is replaced on its own, and bytes that
begin a character which the next byte does not go on with are replaced once, all together.
Decoding gives the one text that is so (`replaces_iff`). The link is what a sequence that has
begun stands for: the bytes read so far, and with them every way to complete them
(`Owed.After`). -/

namespace RadarProfile.Utf8

def Begins (bytes : List UInt8) : Prop := ∃ c, bytes <+: String.utf8EncodeChar c

/-- `Replaces bytes t`: the text `t` is that of the bytes, with one replacement character for
each longest part that begins a character and does not make one, and for each byte that
begins none. -/
inductive Replaces : List UInt8 → Text → Prop where
  | nil : Replaces [] []
  /-- The UTF-8 of a character. -/
  | char (c : Char) {rest : List UInt8} {t : Text} (h : Replaces rest t) :
      Replaces (String.utf8EncodeChar c ++ rest) (c :: t)
  /-- A byte that begins no character. -/
  | stray {b : UInt8} {rest : List UInt8} {t : Text} (stray : ¬ Begins [b])
      (h : Replaces rest t) : Replaces (b :: rest) (replacement :: t)
  /-- The beginning of a character, as far as it goes. -/
  | broken {part rest : List UInt8} {t : Text} (nonempty : part ≠ []) (begins : Begins part)
      (unfinished : ∀ c, String.utf8EncodeChar c ≠ part)
      (longest : ∀ b ∈ rest.head?, ¬ Begins (part ++ [b])) (h : Replaces rest t) :
      Replaces (part ++ rest) (replacement :: t)

theorem Begins.of_append {part more : List UInt8} : Begins (part ++ more) → Begins part
  | ⟨c, h⟩ => ⟨c, (List.prefix_append part more).trans h⟩

/-! ## The UTF-8 of a character, byte by byte -/

theorem val_ofNat_of_valid {n : Nat} (h : n.isValidChar) : (Char.ofNat n).val.toNat = n :=
  toNat_ofNat_of_valid h

theorem eq_ofNat_of_toNat {b : UInt8} {n : Nat} (h : n = b.toNat) : UInt8.ofNat n = b := by
  rw [h, UInt8.ofNat_toNat]

theorem encodeChar_two {a b : UInt8} (ha : 0xC2 ≤ a.toNat ∧ a.toNat < 0xE0)
    (hb : 0x80 ≤ b.toNat ∧ b.toNat ≤ 0xBF) :
    String.utf8EncodeChar (Char.ofNat ((a.toNat - 0xC0) * 64 + (b.toNat - 0x80))) = [a, b] := by
  generalize hn : (a.toNat - 0xC0) * 64 + (b.toNat - 0x80) = n
  have hvalid : n.isValidChar := Or.inl (by omega)
  rw [String.utf8EncodeChar, val_ofNat_of_valid hvalid, if_neg (by omega), if_pos (by omega),
    eq_ofNat_of_toNat (b := a) (by omega), eq_ofNat_of_toNat (b := b) (by omega)]

theorem encodeChar_three {a b c : UInt8} (ha : 0xE0 ≤ a.toNat ∧ a.toNat < 0xF0)
    (hb : (if a.toNat = 0xE0 then 0xA0 else 0x80) ≤ b.toNat ∧
      b.toNat ≤ if a.toNat = 0xED then 0x9F else 0xBF)
    (hc : 0x80 ≤ c.toNat ∧ c.toNat ≤ 0xBF) :
    String.utf8EncodeChar (Char.ofNat (((a.toNat - 0xE0) * 64 + (b.toNat - 0x80)) * 64 +
      (c.toNat - 0x80))) = [a, b, c] := by
  obtain ⟨hlow, hhigh⟩ := hb
  have hlow : 0x80 ≤ b.toNat ∧ (a.toNat = 0xE0 → 0xA0 ≤ b.toNat) := by
    split_ifs at hlow with h <;> omega
  have hhigh : b.toNat ≤ 0xBF ∧ (a.toNat = 0xED → b.toNat ≤ 0x9F) := by
    split_ifs at hhigh with h <;> omega
  generalize hn : ((a.toNat - 0xE0) * 64 + (b.toNat - 0x80)) * 64 + (c.toNat - 0x80) = n
  have hvalid : n.isValidChar := by
    have : n < 0xD800 ∨ 0xDFFF < n ∧ n < 0x110000 := by omega
    exact this
  rw [String.utf8EncodeChar, val_ofNat_of_valid hvalid, if_neg (by omega), if_neg (by omega),
    if_pos (by omega), eq_ofNat_of_toNat (b := a) (by omega), eq_ofNat_of_toNat (b := b) (by omega),
    eq_ofNat_of_toNat (b := c) (by omega)]

theorem encodeChar_four {a b c d : UInt8} (ha : 0xF0 ≤ a.toNat ∧ a.toNat < 0xF5)
    (hb : (if a.toNat = 0xF0 then 0x90 else 0x80) ≤ b.toNat ∧
      b.toNat ≤ if a.toNat = 0xF4 then 0x8F else 0xBF)
    (hc : 0x80 ≤ c.toNat ∧ c.toNat ≤ 0xBF) (hd : 0x80 ≤ d.toNat ∧ d.toNat ≤ 0xBF) :
    String.utf8EncodeChar (Char.ofNat ((((a.toNat - 0xF0) * 64 + (b.toNat - 0x80)) * 64 +
      (c.toNat - 0x80)) * 64 + (d.toNat - 0x80))) = [a, b, c, d] := by
  obtain ⟨hlow, hhigh⟩ := hb
  have hlow : 0x80 ≤ b.toNat ∧ (a.toNat = 0xF0 → 0x90 ≤ b.toNat) := by
    split_ifs at hlow with h <;> omega
  have hhigh : b.toNat ≤ 0xBF ∧ (a.toNat = 0xF4 → b.toNat ≤ 0x8F) := by
    split_ifs at hhigh with h <;> omega
  generalize hn : (((a.toNat - 0xF0) * 64 + (b.toNat - 0x80)) * 64 + (c.toNat - 0x80)) * 64 +
    (d.toNat - 0x80) = n
  have hvalid : n.isValidChar := Or.inr (by omega)
  rw [String.utf8EncodeChar, val_ofNat_of_valid hvalid, if_neg (by omega), if_neg (by omega),
    if_neg (by omega), eq_ofNat_of_toNat (b := a) (by omega), eq_ofNat_of_toNat (b := b) (by omega),
    eq_ofNat_of_toNat (b := c) (by omega), eq_ofNat_of_toNat (b := d) (by omega)]

/-! ## What a sequence that has begun stands for -/

def Owed.Admits (owed : Owed) (b : UInt8) : Prop := owed.low ≤ b.toNat ∧ b.toNat ≤ owed.high

def Owed.next (owed : Owed) (b : UInt8) : Owed :=
  ⟨owed.bits * 64 + (b.toNat - 0x80), 0x80, 0xBF, owed.further - 1⟩

/-- `owed.CompletedBy tail c`: the bytes `tail` complete the sequence to the character `c`. -/
inductive Owed.CompletedBy : Owed → List UInt8 → Char → Prop where
  | last {owed : Owed} {b : UInt8} (further : owed.further = 0) (admits : owed.Admits b) :
      CompletedBy owed [b] (Char.ofNat (owed.bits * 64 + (b.toNat - 0x80)))
  | more {owed : Owed} {b : UInt8} {tail : List UInt8} {c : Char}
      (further : owed.further ≠ 0) (admits : owed.Admits b)
      (h : CompletedBy (owed.next b) tail c) : CompletedBy owed (b :: tail) c

namespace Owed.CompletedBy

variable {owed : Owed} {tail : List UInt8} {c : Char} (h : owed.CompletedBy tail c)

include h

theorem of_further_eq_zero (hfurther : owed.further = 0) :
    ∃ b, tail = [b] ∧ owed.Admits b ∧ c = Char.ofNat (owed.bits * 64 + (b.toNat - 0x80)) := by
  cases h with
  | last _ hb => exact ⟨_, rfl, hb, rfl⟩
  | more hmore => exact absurd hfurther hmore

theorem of_further_ne_zero (hfurther : owed.further ≠ 0) :
    ∃ b tail', tail = b :: tail' ∧ owed.Admits b ∧ (owed.next b).CompletedBy tail' c := by
  cases h with
  | last hlast => exact absurd hlast hfurther
  | more _ hb h => exact ⟨_, _, rfl, hb, h⟩

end Owed.CompletedBy

/-- The sequence is what the decoder is in after the bytes `part`: nothing is decoded of them
yet, and whatever completes the sequence makes a character of them. -/
structure Owed.After (owed : Owed) (part : List UInt8) : Prop where
  nonempty : part ≠ []
  decode_eq : ∀ rest, decode (part ++ rest) = decodeFrom (some owed) rest
  encodeChar_eq : ∀ tail c, owed.CompletedBy tail c → String.utf8EncodeChar c = part ++ tail
  exists_admits : ∃ b, owed.Admits b

theorem decodeFrom_some_admits {owed : Owed} (hfurther : owed.further ≠ 0) {b : UInt8}
    (h : owed.Admits b) (rest : List UInt8) :
    decodeFrom (some owed) (b :: rest) = decodeFrom (some (owed.next b)) rest := by
  obtain ⟨bits, low, high, further⟩ := owed
  cases further with
  | zero => exact absurd rfl hfurther
  | succ further =>
      rw [decodeFrom, step_more h, List.nil_append]
      rfl

theorem decodeFrom_some_last {owed : Owed} (hfurther : owed.further = 0) {b : UInt8}
    (h : owed.Admits b) (rest : List UInt8) :
    decodeFrom (some owed) (b :: rest) =
      Char.ofNat (owed.bits * 64 + (b.toNat - 0x80)) :: decode rest := by
  obtain ⟨bits, low, high, further⟩ := owed
  obtain rfl : further = 0 := hfurther
  rw [decodeFrom, step_last h]
  rfl

/-- A byte that the sequence does not admit is looked at afresh. -/
theorem decodeFrom_some_of_not_admits {owed : Owed} {b : UInt8} (h : ¬ owed.Admits b)
    (rest : List UInt8) :
    decodeFrom (some owed) (b :: rest) = replacement :: decode (b :: rest) := by
  have hstep : step (some owed) b.toNat = (replacement :: (lead b.toNat).1, (lead b.toNat).2) :=
    if_neg h
  rw [decodeFrom, hstep]
  rfl

/-- The first of the bytes that continue a sequence is always one of them. -/
theorem continuation_admitted {owed : Owed} (hlow : owed.low = 0x80)
    (hhigh : owed.high = 0xBF) : owed.Admits 0x80 := by
  rw [Owed.Admits, hlow, hhigh]
  decide

theorem exists_completedBy (owed : Owed) {b : UInt8} (h : owed.Admits b) :
    ∃ tail c, owed.CompletedBy (b :: tail) c := by
  obtain ⟨bits, low, high, further⟩ := owed
  induction further generalizing bits low high b with
  | zero => exact ⟨[], _, .last rfl h⟩
  | succ further ih =>
      -- any continuation byte will do for the rest
      obtain ⟨tail, c, hc⟩ :=
        ih (bits * 64 + (b.toNat - 0x80)) 0x80 0xBF (continuation_admitted rfl rfl)
      exact ⟨_, c, .more (Nat.succ_ne_zero further) h hc⟩

namespace Owed.After

variable {owed : Owed} {part : List UInt8} (h : owed.After part)

include h

theorem begins_of_admits {b : UInt8} (hb : owed.Admits b) : Begins (part ++ [b]) := by
  obtain ⟨tail, c, hc⟩ := exists_completedBy owed hb
  refine ⟨c, tail, ?_⟩
  rw [h.encodeChar_eq _ c hc, List.append_assoc]
  rfl

theorem begins : Begins part := by
  obtain ⟨b, hb⟩ := h.exists_admits
  exact (h.begins_of_admits hb).of_append

theorem not_begins_of_not_admits {b : UInt8} (hb : ¬ owed.Admits b) :
    ¬ Begins (part ++ [b]) := by
  rintro ⟨c, tail, hc⟩
  -- otherwise the character would be decoded to a replacement and something after it
  have hchar : decode (String.utf8EncodeChar c ++ []) = [c] := decodeFrom_encodeChar c []
  rw [List.append_nil, ← hc, List.append_assoc, h.decode_eq, List.singleton_append,
    decodeFrom_some_of_not_admits hb, List.cons.injEq, decode_eq_nil_iff] at hchar
  exact absurd hchar.2 (List.cons_ne_nil _ _)

theorem unfinished (c : Char) : String.utf8EncodeChar c ≠ part := by
  intro hc
  obtain ⟨b, hb⟩ := h.exists_admits
  have hlength : (decodeFrom (some owed) [b]).length = 1 := by
    by_cases hfurther : owed.further = 0
    · rw [decodeFrom_some_last hfurther hb]
      rfl
    · rw [decodeFrom_some_admits hfurther hb]
      rfl
  -- a whole character would leave the next byte a character of its own
  have hchar : decode (part ++ [b]) = c :: decode [b] := by
    rw [← hc]
    exact decodeFrom_encodeChar c [b]
  rw [← h.decode_eq, hchar, List.length_cons, Nat.succ_inj, List.length_eq_zero_iff,
    decode_eq_nil_iff] at hlength
  exact absurd hlength (List.cons_ne_nil _ _)

/-- An admitted byte leads to the next sequence. -/
theorem snoc (hfurther : owed.further ≠ 0) {b : UInt8} (hb : owed.Admits b) :
    (owed.next b).After (part ++ [b]) where
  nonempty := List.append_ne_nil_of_right_ne_nil _ (List.cons_ne_nil _ _)
  decode_eq := by
    intro rest
    rw [List.append_assoc, h.decode_eq, List.singleton_append,
      decodeFrom_some_admits hfurther hb]
  encodeChar_eq := by
    intro tail c hc
    rw [h.encodeChar_eq _ c (.more hfurther hb hc), List.append_assoc]
    rfl
  exists_admits := ⟨0x80, continuation_admitted rfl rfl⟩

/-- **A sequence that has begun is completed to a character, or replaced** together with as
much of what follows as it admits. -/
theorem completed_or_replaced (rest : List UInt8) :
    (∃ tail rest' c, rest = tail ++ rest' ∧ String.utf8EncodeChar c = part ++ tail ∧
        decodeFrom (some owed) rest = c :: decode rest') ∨
      ∃ more rest', rest = more ++ rest' ∧ Begins (part ++ more) ∧
        (∀ c, String.utf8EncodeChar c ≠ part ++ more) ∧
        (∀ b ∈ rest'.head?, ¬ Begins (part ++ more ++ [b])) ∧
        decodeFrom (some owed) rest = replacement :: decode rest' := by
  -- each byte that is admitted moves from the rest into the part
  induction rest generalizing owed part with
  | nil =>
      refine Or.inr ⟨[], [], rfl, ?_⟩
      rw [List.append_nil]
      exact ⟨h.begins, h.unfinished, by simp, rfl⟩
  | cons b rest ih =>
      by_cases hb : owed.Admits b
      · by_cases hfurther : owed.further = 0
        · exact Or.inl ⟨[b], rest, _, rfl, h.encodeChar_eq _ _ (.last hfurther hb),
            decodeFrom_some_last hfurther hb rest⟩
        · rw [decodeFrom_some_admits hfurther hb]
          rcases ih (h.snoc hfurther hb) with
            ⟨tail, rest', c, rfl, hc, hdecode⟩ | ⟨more, rest', rfl, hbroken⟩
          · rw [List.append_assoc] at hc
            exact Or.inl ⟨b :: tail, rest', c, rfl, hc, hdecode⟩
          · rw [List.append_assoc] at hbroken
            exact Or.inr ⟨b :: more, rest', rfl, hbroken⟩
      · refine Or.inr ⟨[], b :: rest, rfl, ?_⟩
        rw [List.append_nil]
        refine ⟨h.begins, h.unfinished, ?_, decodeFrom_some_of_not_admits hb rest⟩
        intro b' hb'
        obtain rfl : b = b' := Option.some.inj hb'
        exact h.not_begins_of_not_admits hb

end Owed.After

/-! ## The first byte -/

theorem decode_cons {b : UInt8} {t : Text} {owed : Option Owed} (h : lead b.toNat = (t, owed))
    (rest : List UInt8) : decode (b :: rest) = t ++ decodeFrom owed rest := by
  rw [decode, decodeFrom, step, h]

theorem encodeChar_of_lt {b : UInt8} (h : b.toNat < 0x80) :
    String.utf8EncodeChar (Char.ofNat b.toNat) = [b] := by
  rw [String.utf8EncodeChar, val_ofNat_of_valid (Or.inl (by omega)), if_pos (by omega),
    UInt8.ofNat_toNat]

/-- A byte that the decoder replaces at once begins no character. -/
theorem not_begins_of_lead {b : UInt8} (h : lead b.toNat = ([replacement], none)) :
    ¬ Begins [b] := by
  rintro ⟨c, tail, hc⟩
  have hchar : decode (String.utf8EncodeChar c ++ []) = [c] := decodeFrom_encodeChar c []
  rw [List.append_nil, ← hc, List.singleton_append, decode_cons h, List.singleton_append,
    List.cons.injEq] at hchar
  obtain ⟨rfl, hnil⟩ := hchar
  -- the character would be the replacement itself, which has three bytes
  obtain rfl : tail = [] := decode_eq_nil_iff.mp hnil
  have hlength : [b].length = (String.utf8EncodeChar replacement).length :=
    congrArg List.length hc
  rw [List.length_singleton] at hlength
  exact absurd hlength (by decide)

theorem after_two {b : UInt8} (hb : 0xC2 ≤ b.toNat ∧ b.toNat < 0xE0) :
    Owed.After ⟨b.toNat - 0xC0, 0x80, 0xBF, 0⟩ [b] where
  nonempty := List.cons_ne_nil _ _
  decode_eq := decode_cons (lead_of_two hb)
  encodeChar_eq := by
    intro tail c h
    obtain ⟨second, rfl, hsecond, hc⟩ := h.of_further_eq_zero rfl
    rw [hc]
    exact encodeChar_two hb hsecond
  exists_admits := ⟨0x80, continuation_admitted rfl rfl⟩

theorem after_three {b : UInt8} (hb : 0xE0 ≤ b.toNat ∧ b.toNat < 0xF0) :
    Owed.After ⟨b.toNat - 0xE0, if b.toNat = 0xE0 then 0xA0 else 0x80,
      if b.toNat = 0xED then 0x9F else 0xBF, 1⟩ [b] where
  nonempty := List.cons_ne_nil _ _
  decode_eq := decode_cons (lead_of_three hb)
  encodeChar_eq := by
    intro tail c h
    obtain ⟨second, tail, rfl, hsecond, h⟩ := h.of_further_ne_zero Nat.one_ne_zero
    obtain ⟨third, rfl, hthird, hc⟩ := h.of_further_eq_zero rfl
    rw [hc]
    exact encodeChar_three hb hsecond hthird
  exists_admits := by
    by_cases hlow : b.toNat = 0xE0
    · refine ⟨0xA0, ?_⟩
      rw [Owed.Admits, hlow]
      decide
    · refine ⟨0x80, Nat.le_of_eq (if_neg hlow), ?_⟩
      show (0x80 : UInt8).toNat ≤ if b.toNat = 0xED then 0x9F else 0xBF
      split_ifs <;> decide

theorem after_four {b : UInt8} (hb : 0xF0 ≤ b.toNat ∧ b.toNat < 0xF5) :
    Owed.After ⟨b.toNat - 0xF0, if b.toNat = 0xF0 then 0x90 else 0x80,
      if b.toNat = 0xF4 then 0x8F else 0xBF, 2⟩ [b] where
  nonempty := List.cons_ne_nil _ _
  decode_eq := decode_cons (lead_of_four hb)
  encodeChar_eq := by
    intro tail c h
    obtain ⟨second, tail, rfl, hsecond, h⟩ := h.of_further_ne_zero (Nat.succ_ne_zero 1)
    obtain ⟨third, tail, rfl, hthird, h⟩ := h.of_further_ne_zero Nat.one_ne_zero
    obtain ⟨fourth, rfl, hfourth, hc⟩ := h.of_further_eq_zero rfl
    rw [hc]
    exact encodeChar_four hb hsecond hthird hfourth
  exists_admits := by
    by_cases hlow : b.toNat = 0xF0
    · refine ⟨0x90, ?_⟩
      rw [Owed.Admits, hlow]
      decide
    · refine ⟨0x80, Nat.le_of_eq (if_neg hlow), ?_⟩
      show (0x80 : UInt8).toNat ≤ if b.toNat = 0xF4 then 0x8F else 0xBF
      split_ifs <;> decide

/-- **What the first byte is**: a character, a byte that begins none, or the beginning of a
sequence. -/
theorem first_cases (b : UInt8) :
    (lead b.toNat = ([Char.ofNat b.toNat], none) ∧
        String.utf8EncodeChar (Char.ofNat b.toNat) = [b]) ∨
      (lead b.toNat = ([replacement], none) ∧ ¬ Begins [b]) ∨
        ∃ owed : Owed, lead b.toNat = ([], some owed) ∧ owed.After [b] := by
  by_cases hascii : b.toNat < 0x80
  · exact Or.inl ⟨lead_of_lt hascii, encodeChar_of_lt hascii⟩
  by_cases hstray : b.toNat < 0xC2 ∨ 0xF5 ≤ b.toNat
  · have hlead : lead b.toNat = ([replacement], none) := lead_of_stray (by omega)
    exact Or.inr (Or.inl ⟨hlead, not_begins_of_lead hlead⟩)
  refine Or.inr (Or.inr ?_)
  by_cases htwo : b.toNat < 0xE0
  · exact ⟨_, lead_of_two (by omega), after_two (by omega)⟩
  by_cases hthree : b.toNat < 0xF0
  · exact ⟨_, lead_of_three (by omega), after_three (by omega)⟩
  · exact ⟨_, lead_of_four (by omega), after_four (by omega)⟩

/-- **Decoding replaces exactly what is no UTF-8**: every part of the bytes that is a character
becomes that character, and what begins none, or begins one and breaks off, becomes one
replacement character, for as many bytes as go together. -/
theorem replaces_decode (bytes : List UInt8) : Replaces bytes (decode bytes) := by
  -- a character and a broken part may have several bytes, so what follows is any shorter rest
  induction hlength : bytes.length using Nat.strongRecOn generalizing bytes with
  | ind n ih =>
      cases bytes with
      | nil => exact .nil
      | cons b bytes =>
          have ih : ∀ front rest, bytes = front ++ rest → Replaces rest (decode rest) := by
            rintro front rest rfl
            rw [List.length_cons, List.length_append] at hlength
            exact ih rest.length (by omega) rest rfl
          rcases first_cases b with ⟨hlead, hchar⟩ | ⟨hlead, hstray⟩ | ⟨owed, hlead, hafter⟩
          · have h := Replaces.char (Char.ofNat b.toNat) (ih [] bytes rfl)
            rw [hchar] at h
            rw [decode_cons hlead]
            exact h
          · rw [decode_cons hlead]
            exact .stray hstray (ih [] bytes rfl)
          · rw [decode_cons hlead, List.nil_append]
            rcases hafter.completed_or_replaced bytes with
              ⟨tail, rest, c, hbytes, hc, hdecode⟩ |
                ⟨more, rest, hbytes, hbegins, hunfinished, hlongest, hdecode⟩
            · have h := Replaces.char c (ih tail rest hbytes)
              rw [hc, List.append_assoc, ← hbytes] at h
              rw [hdecode]
              exact h
            · have hne : [b] ++ more ≠ [] := List.cons_ne_nil _ _
              have h := Replaces.broken hne hbegins hunfinished hlongest (ih more rest hbytes)
              rw [List.append_assoc, ← hbytes] at h
              rw [hdecode]
              exact h

/-! ## Nothing else is allowed -/

/-- No character begins with another one. -/
theorem eq_of_encodeChar_append {c c' : Char} {more : List UInt8}
    (h : String.utf8EncodeChar c ++ more = String.utf8EncodeChar c') : more = [] := by
  have hchar : decode (String.utf8EncodeChar c' ++ []) = [c'] := decodeFrom_encodeChar c' []
  rw [List.append_nil, ← h, decode, decodeFrom_encodeChar, List.cons.injEq] at hchar
  exact decode_eq_nil_iff.mp hchar.2

/-- A beginning as long as it can be is replaced as a whole. -/
theorem decode_broken {part rest : List UInt8} (nonempty : part ≠ []) (begins : Begins part)
    (unfinished : ∀ c, String.utf8EncodeChar c ≠ part)
    (longest : ∀ b ∈ rest.head?, ¬ Begins (part ++ [b])) :
    decode (part ++ rest) = replacement :: decode rest := by
  obtain ⟨b, part, rfl⟩ := List.exists_cons_of_ne_nil nonempty
  obtain ⟨c', more', hc'⟩ := begins
  rcases first_cases b with ⟨_, hchar⟩ | ⟨_, hstray⟩ | ⟨owed, hlead, hafter⟩
  · -- a character of one byte goes no further
    rw [← List.singleton_append, ← hchar, List.append_assoc] at hc'
    obtain ⟨rfl, _⟩ := List.append_eq_nil_iff.mp (eq_of_encodeChar_append hc')
    exact absurd hchar (unfinished _)
  · exact absurd ⟨c', part ++ more', hc'⟩ hstray
  rw [List.cons_append, decode_cons hlead, List.nil_append]
  rcases hafter.completed_or_replaced (part ++ rest) with
    ⟨tail, rest', c, hcut, hc, _⟩ | ⟨more, rest', hcut, hbegins, _, hlongest, hdecode⟩
  · -- a character would be the part, go beyond it, or be the beginning of another one
    rcases List.append_eq_append_iff.mp hcut with ⟨extra, rfl, rfl⟩ | ⟨extra, rfl, rfl⟩
    · cases extra with
      | nil =>
          rw [List.append_nil] at hc
          exact absurd hc (unfinished c)
      | cons d extra => exact absurd ⟨c, extra, by simp [hc]⟩ (longest d rfl)
    · have hmore : String.utf8EncodeChar c ++ (extra ++ more') = String.utf8EncodeChar c' := by
        simpa [hc] using hc'
      obtain ⟨rfl, _⟩ := List.append_eq_nil_iff.mp (eq_of_encodeChar_append hmore)
      rw [List.append_nil] at unfinished
      exact absurd hc (unfinished c)
  · -- both are as long as can be, so they are one
    rw [hdecode]
    rcases List.append_eq_append_iff.mp hcut with ⟨extra, rfl, rfl⟩ | ⟨extra, rfl, rfl⟩
    · cases extra with
      | nil => rfl
      | cons d extra =>
          have hlonger : Begins (b :: part ++ [d] ++ extra) := by simpa using hbegins
          exact absurd hlonger.of_append (longest d rfl)
    · cases extra with
      | nil => rfl
      | cons d extra => exact absurd ⟨c', extra ++ more', by simpa using hc'⟩ (hlongest d rfl)

/-- **What decoding replaces is settled**: of any bytes there is one text that replaces what is
no UTF-8, and decoding gives it. -/
theorem replaces_iff {bytes : List UInt8} {t : Text} : Replaces bytes t ↔ t = decode bytes := by
  constructor
  · intro h
    induction h with
    | nil => rfl
    | char c _ ih =>
        rw [ih]
        exact (decodeFrom_encodeChar c _).symm
    | @stray b rest t hstray _ ih =>
        rw [ih]
        rcases first_cases b with ⟨_, hchar⟩ | ⟨hlead, _⟩ | ⟨owed, _, hafter⟩
        · exact absurd ⟨_, [], hchar.symm⟩ hstray
        · exact (decode_cons hlead rest).symm
        · exact absurd hafter.begins hstray
    | broken nonempty begins unfinished longest _ ih =>
        rw [ih]
        exact (decode_broken nonempty begins unfinished longest).symm
  · rintro rfl
    exact replaces_decode bytes

end RadarProfile.Utf8
