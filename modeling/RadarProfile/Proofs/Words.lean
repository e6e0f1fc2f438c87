import Mathlib.Data.List.Basic
import Mathlib.Data.List.TakeWhile
import RadarProfile.Run

set_option autoImplicit false

/-! # Words and the blanks around them

A text is made of words and of blanks that part them: `Spells ws t` says that the words of the
text `t` are `ws`, whatever blanks stand between them and around them. Cutting a text into words
finds the words that it spells, and a text spells no others (`words_eq_iff`). So a command is
read from all texts that spell its tokens and from no other text
(`Command.ofText?_eq_some_iff`). Its own text is one of them, and which one a line has makes no
difference to its parameters or its antennas (`Command.text_round_trip`). -/

namespace RadarProfile

/-! ## Gaps and words -/

def IsGap (gap : Text) : Prop := ∀ c ∈ gap, isBlank c = true

def IsWord (word : Text) : Prop := word ≠ [] ∧ ∀ c ∈ word, isBlank c = false

/-- `Spells ws t`: the text `t` has the words `ws`, in this order, with any blanks before the
first one and after the last one, and with one blank at least between neighbours. -/
inductive Spells : List Text → Text → Prop where
  /-- No word at all. -/
  | blank {gap : Text} (isGap : IsGap gap) : Spells [] gap
  /-- A word at the end of the text. -/
  | last {before word : Text} (isGap : IsGap before) (isWord : IsWord word) :
      Spells [word] (before ++ word)
  /-- A word, a gap that is not empty, and a text with the other words. -/
  | next {before word gap rest : Text} {words : List Text} (isGap : IsGap before)
      (isWord : IsWord word) (parted : gap ≠ []) (isGap' : IsGap gap) (h : Spells words rest) :
      Spells (word :: words) (before ++ (word ++ (gap ++ rest)))

theorem isGap_nil : IsGap [] := fun _ h => absurd h List.not_mem_nil

theorem isGap_singleton {c : Char} (h : isBlank c = true) : IsGap [c] :=
  List.forall_mem_singleton.mpr h

/-- **Every text is blank or has a first word**, and what follows that word is nothing or begins
with a blank. -/
theorem isGap_or_exists_word (t : Text) :
    IsGap t ∨ ∃ before word rest, t = before ++ (word ++ rest) ∧ IsGap before ∧ IsWord word ∧
      ∀ c ∈ rest.head?, isBlank c = true := by
  have ht : t.takeWhile isBlank ++ t.dropWhile isBlank = t := List.takeWhile_append_dropWhile
  by_cases hblank : t.dropWhile isBlank = []
  · exact Or.inl (List.dropWhile_eq_nil_iff.mp hblank)
  refine Or.inr ⟨t.takeWhile isBlank, (t.dropWhile isBlank).takeWhile (!isBlank ·),
    (t.dropWhile isBlank).dropWhile (!isBlank ·), ?_, fun c hc => List.mem_takeWhile_imp hc,
    ⟨?_, fun c hc => ?_⟩, fun c hc => ?_⟩
  · rw [List.takeWhile_append_dropWhile, ht]
  · -- the first character that is kept is not blank
    obtain ⟨c, rest, hrest⟩ := List.exists_cons_of_ne_nil hblank
    have hc : isBlank c = false := by
      simpa only [hrest, List.head_cons] using List.head_dropWhile_not isBlank hblank
    rw [hrest, List.takeWhile_cons_of_pos (by rw [hc]; rfl)]
    exact List.cons_ne_nil _ _
  · simpa using List.mem_takeWhile_imp hc
  · obtain ⟨rest, hrest⟩ := List.head?_eq_some_iff.mp hc
    have hne : (t.dropWhile isBlank).dropWhile (!isBlank ·) ≠ [] := by simp [hrest]
    simpa [hrest] using List.head_dropWhile_not (!isBlank ·) hne

/-! ## Cutting -/

theorem words_cons_of_blank {c : Char} (h : isBlank c = true) (t : Text) :
    words (c :: t) = words t := by
  rw [words, words, ← List.nil_append (c :: t), List.splitOnP_append_cons _ _ h,
    List.filter_append]
  rfl

theorem words_gap_append {gap : Text} (h : IsGap gap) (t : Text) :
    words (gap ++ t) = words t := by
  induction gap with
  | nil => rfl
  | cons c gap ih =>
      rw [List.cons_append, words_cons_of_blank (h c List.mem_cons_self)]
      exact ih fun d hd => h d (List.mem_cons_of_mem _ hd)

theorem words_of_isGap {gap : Text} (h : IsGap gap) : words gap = [] := by
  have := words_gap_append h []
  rw [List.append_nil] at this
  exact this

theorem words_of_isWord {word : Text} (h : IsWord word) : words word = [word] := by
  rw [words, List.splitOnP_eq_singleton h.2, List.filter_singleton,
    List.isEmpty_eq_false_iff.mpr h.1]
  rfl

/-- A word ends where a gap begins. -/
theorem words_word_append {word gap : Text} (hword : IsWord word) (hparted : gap ≠ [])
    (hgap : IsGap gap) (rest : Text) : words (word ++ (gap ++ rest)) = word :: words rest := by
  obtain ⟨c, gap, rfl⟩ := List.exists_cons_of_ne_nil hparted
  have hc : isBlank c = true := hgap c List.mem_cons_self
  have hgap : IsGap gap := fun d hd => hgap d (List.mem_cons_of_mem _ hd)
  calc words (word ++ (c :: gap ++ rest))
      = words word ++ words (gap ++ rest) := by
        rw [words, List.cons_append, List.splitOnP_append_cons _ _ hc, List.filter_append]
        rfl
    _ = word :: words rest := by
        rw [words_of_isWord hword, words_gap_append hgap, List.singleton_append]

namespace Spells

theorem words_eq {ws : List Text} {t : Text} (h : Spells ws t) : words t = ws := by
  induction h with
  | blank isGap => exact words_of_isGap isGap
  | last isGap isWord => rw [words_gap_append isGap, words_of_isWord isWord]
  | next isGap isWord parted isGap' _ ih =>
      rw [words_gap_append isGap, words_word_append isWord parted isGap', ih]

theorem isWord_of_mem {ws : List Text} {t : Text} (h : Spells ws t) :
    ∀ word ∈ ws, IsWord word := by
  induction h with
  | blank => exact fun word hword => absurd hword List.not_mem_nil
  | last _ isWord => exact List.forall_mem_singleton.mpr isWord
  | next _ isWord _ _ _ ih => exact List.forall_mem_cons.mpr ⟨isWord, ih⟩

end Spells

theorem spells_words (t : Text) : Spells (words t) t := by
  -- on the length: a text is shorter behind its first word
  induction hlength : t.length using Nat.strongRecOn generalizing t with
  | ind n ih =>
      rcases isGap_or_exists_word t with
        hgap | ⟨before, word, rest, rfl, hbefore, hword, hparted⟩
      · rw [words_of_isGap hgap]
        exact .blank hgap
      cases rest with
      | nil =>
          rw [List.append_nil, words_gap_append hbefore, words_of_isWord hword]
          exact .last hbefore hword
      | cons c rest =>
          have hc : IsGap [c] := isGap_singleton (hparted c rfl)
          have hne : [c] ≠ [] := List.cons_ne_nil _ _
          have hshorter : rest.length < n := by
            simp only [List.length_append, List.length_cons] at hlength
            omega
          rw [words_gap_append hbefore, ← List.singleton_append,
            words_word_append hword hne hc]
          exact .next hbefore hword hne hc (ih _ hshorter rest rfl)

/-- **The words of a text are those that it spells**, and it spells no others. -/
theorem words_eq_iff {t : Text} {ws : List Text} : words t = ws ↔ Spells ws t := by
  constructor
  · rintro rfl
    exact spells_words t
  · exact Spells.words_eq

/-- A text without words is blank. -/
theorem spells_nil_iff {t : Text} : Spells [] t ↔ IsGap t := by
  constructor
  · rintro ⟨isGap⟩
    exact isGap
  · exact .blank

/-! ## What is not blank -/

theorem filter_of_isGap {gap : Text} (h : IsGap gap) : gap.filter (!isBlank ·) = [] :=
  List.filter_eq_nil_iff.mpr fun c hc => by simp [h c hc]

theorem filter_of_isWord {word : Text} (h : IsWord word) : word.filter (!isBlank ·) = word :=
  List.filter_eq_self.mpr fun c hc => by simp [h.2 c hc]

/-- **Nothing but blanks is lost**: each other character is in one word, in its place. -/
theorem Spells.flatten_eq {ws : List Text} {t : Text} (h : Spells ws t) :
    ws.flatten = t.filter (!isBlank ·) := by
  induction h with
  | blank isGap => exact (filter_of_isGap isGap).symm
  | last isGap isWord =>
      rw [List.filter_append, filter_of_isGap isGap, filter_of_isWord isWord]
      simp
  | next isGap isWord _ isGap' _ ih =>
      simp only [List.filter_append, filter_of_isGap isGap, filter_of_isWord isWord,
        filter_of_isGap isGap', List.flatten_cons, ih, List.nil_append]

theorem spells_joinWithSpaces {ws : List Text} (h : ∀ word ∈ ws, IsWord word) :
    Spells ws (Text.joinWithSpaces ws) := by
  induction ws with
  | nil => exact .blank isGap_nil
  | cons word ws ih =>
      obtain ⟨hword, hws⟩ := List.forall_mem_cons.mp h
      cases ws with
      | nil =>
          rw [Text.joinWithSpaces, List.intercalate_singleton]
          exact .last isGap_nil hword
      | cons other ws =>
          have hspace : IsGap [' '] := isGap_singleton (by decide)
          rw [Text.joinWithSpaces, List.intercalate_cons_cons, List.append_assoc]
          exact .next isGap_nil hword (List.cons_ne_nil _ _) hspace (ih hws)

/-! ## Commands -/

namespace Command

theorem ofText?_eq_some_iff_words {t : Text} {c : Command} :
    ofText? t = some c ↔ words t = c.tokens := by
  unfold ofText? tokens
  cases words t with
  | nil => exact iff_of_false (by rintro ⟨⟩) (by rintro ⟨⟩)
  | cons keyword arguments =>
      rcases c with ⟨keyword', arguments'⟩
      simp

/-- **A command is read from the texts that spell its tokens**, and from no other. -/
theorem ofText?_eq_some_iff {t : Text} {c : Command} :
    ofText? t = some c ↔ Spells c.tokens t :=
  ofText?_eq_some_iff_words.trans words_eq_iff

/-- No command is read from blanks, and one is read from all else. -/
theorem ofText?_eq_none_iff {t : Text} : ofText? t = none ↔ IsGap t := by
  rw [← spells_nil_iff, ← words_eq_iff, ofText?]
  cases words t with
  | nil => exact iff_of_true rfl rfl
  | cons keyword arguments => exact iff_of_false (by rintro ⟨⟩) (by rintro ⟨⟩)

theorem ofText?_toText {c : Command} (h : ∀ word ∈ c.tokens, IsWord word) :
    ofText? c.toText = some c :=
  ofText?_eq_some_iff.mpr (spells_joinWithSpaces h)

/-- **Reading a command and writing it are inverse.** A text that spells some words is read as
the command of these tokens, whatever its blanks are. Whatever command a text is read as, its
tokens are words that the text spells, every character that is not blank is in them once and in
order, and the command's own text is read as the command again. So the parameters and the
antennas that a text gives depend on its words alone. -/
theorem text_round_trip (t : Text) :
    (∀ ws, ws ≠ [] → Spells ws t → ∃ c, ofText? t = some c ∧ c.tokens = ws) ∧
    (ofText? t = none ↔ IsGap t) ∧
    (∀ c, ofText? t = some c → Spells c.tokens t ∧ (∀ word ∈ c.tokens, IsWord word) ∧
      c.tokens.flatten = t.filter (!isBlank ·) ∧ ofText? c.toText = some c) ∧
    (∀ c : Command, (∀ word ∈ c.tokens, IsWord word) → ofText? c.toText = some c) ∧
    ∀ ws t', Spells ws t → Spells ws t' → ofText? t = ofText? t' ∧
      parametersOf t = parametersOf t' ∧ antennasOf t = antennasOf t' := by
  refine ⟨?_, ofText?_eq_none_iff, ?_, fun c => ofText?_toText, ?_⟩
  · intro ws hne h
    obtain ⟨keyword, arguments, rfl⟩ := List.exists_cons_of_ne_nil hne
    exact ⟨⟨keyword, arguments⟩, ofText?_eq_some_iff.mpr h, rfl⟩
  · intro c hc
    have h := ofText?_eq_some_iff.mp hc
    exact ⟨h, h.isWord_of_mem, h.flatten_eq, ofText?_toText h.isWord_of_mem⟩
  · intro ws t' h h'
    have hread : ofText? t = ofText? t' := by
      rw [ofText?, ofText?, h.words_eq, h'.words_eq]
    exact ⟨hread, by rw [parametersOf, parametersOf, hread],
      by rw [antennasOf, antennasOf, hread]⟩

/-- Blanks of several kinds stand before, between and after the tokens; the text of the command
has a space for each gap, and both give the same two parameters. -/
theorem text_round_trip_of_wide_blanks :
    let t : Text := "\u2003\tchannelCfg\u00a015 \u3000 5\u0085".toList
    let ws : List Text := ["channelCfg".toList, "15".toList, "5".toList]
    let c : Command := ⟨"channelCfg".toList, ["15".toList, "5".toList]⟩
    Spells ws t ∧ ofText? t = some c ∧ c.toText = "channelCfg 15 5".toList ∧
      ofText? c.toText = some c ∧ parametersOf t = parametersOf c.toText ∧
        parametersOf c.toText =
          .ok [⟨"numTxAzimAnt".toList, .int 2⟩, ⟨"numRxAnt".toList, .int 2⟩] := by
  intro t ws c
  have hspells : Spells ws t := words_eq_iff.mp (by decide +kernel)
  obtain ⟨hread, -, hback, -, hsame⟩ := text_round_trip t
  obtain ⟨c', hc', htokens⟩ := hread ws (List.cons_ne_nil _ _) hspells
  obtain ⟨hkeyword, harguments⟩ := List.cons.inj htokens
  have hc : ofText? t = some c := hc'.trans (congrArg some (congrArg₂ mk hkeyword harguments))
  obtain ⟨-, hwords, -, hagain⟩ := hback c hc
  exact ⟨hspells, hc, by decide +kernel, hagain,
    (hsame ws _ hspells (spells_joinWithSpaces hwords)).2.1, by decide +kernel⟩

end Command

end RadarProfile
