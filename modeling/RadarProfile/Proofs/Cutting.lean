import RadarProfile.Proofs.Reaching

set_option autoImplicit false

/-! # Cutting a command line into pieces

A scan that succeeds says how its words are to be cut. Between two pieces it has not yet begun the
next one (`Scan.Between`); there the words are at their tail, or they begin with a piece and the
scan goes on behind it (`Scan.tail_or_beginsWithPiece`). -/

namespace RadarProfile

namespace Grammar

variable {g : Grammar}

theorem mem_of_longNamed {name : Text} {row : OptionRow}
    (h : g.longNamed name = some (.row row)) : row ∈ g.rows ∧ row.long = name := by
  unfold longNamed at h
  split at h
  · rename_i found hfound
    cases h
    exact ⟨List.mem_of_find?_eq_some hfound, by simpa using List.find?_some hfound⟩
  · split_ifs at h
    · cases h
    · cases h

theorem mem_of_shortNamed {letter : Char} {row : OptionRow}
    (h : g.shortNamed letter = some (.row row)) : row ∈ g.rows ∧ row.short = some letter := by
  unfold shortNamed at h
  split at h
  · rename_i found hfound
    cases h
    exact ⟨List.mem_of_find?_eq_some hfound, by simpa using List.find?_some hfound⟩
  · split_ifs at h
    · cases h
    · cases h

/-- What may stand behind pieces: nothing, whatever follows the end of the options, or a
command. -/
inductive Tail (g : Grammar) : List Text → Prop where
  | nil : Tail g []
  | ended (after : List Text) : Tail g (['-', '-'] :: after)
  | command {word : Text} (rest : List Text) (takesDashes : g.operand.takesDashes = true)
      (isWord : g.isWord word = true) : Tail g (word :: rest)

end Grammar

namespace Scan

variable {g : Grammar} {scan next final : Scan} {words : List Text}

/-- Between two pieces: the options go on, and none of them waits for its value. -/
structure Between (scan : Scan) : Prop where
  optionsEnded_eq : scan.optionsEnded = false
  not_awaiting : ∀ row, scan.waiting ≠ .option row none

theorem between_start : start.Between := ⟨rfl, fun row => by rintro ⟨⟩⟩

theorem between_of_takeNow {operand : Operand} {row : OptionRow}
    {result : Except UsageError Setting} (hopen : scan.optionsEnded = false)
    (h : scan.takeNow operand row result = .ok next) : next.Between := by
  obtain ⟨settled, hsettled, hgive⟩ := takeNow_eq_ok_iff.mp h
  rw [give_keeps hgive, settle_keeps hsettled]
  exact ⟨hopen, fun row => by rintro ⟨⟩⟩

theorem exists_value {row : OptionRow} (hopen : scan.optionsEnded = false)
    (hwaiting : scan.waiting = .option row none) (h : scanWords g words scan = .ok final) :
    ∃ (value : Text) (rest : List Text) (after : Scan), words = value :: rest ∧
      g.isWord value = true ∧ after.Between ∧ scanWords g rest after = .ok final := by
  -- whatever reads what waits before the value is there fails
  have hfails : ∀ settled, scan.settle g.operand ≠ .ok settled := by
    intro settled hsettled
    rw [settle_awaiting hwaiting] at hsettled
    cases hsettled
  cases words with
  | nil => exact absurd h (hfails final)
  | cons word rest =>
      obtain ⟨next, hstep, hrest⟩ := scanWords_cons_eq_ok_iff.mp h
      by_cases hdashes : word = ['-', '-']
      · -- the options end, and the value never comes
        rw [hdashes, step_dashes hopen] at hstep
        cases hstep
        refine absurd hrest (Doomed.scanWords_ne_ok ⟨fun settled hsettled => ?_, ?_⟩ rest final)
        · rw [settle_endOptions, settle_awaiting hwaiting] at hsettled
          cases hsettled
        · exact Or.inl ⟨row, none, hwaiting, fun _ => rfl⟩
      · cases hword : g.isWord word with
        | false =>
            obtain ⟨settled, hsettled⟩ := settles_of_step hopen hword hdashes hstep
            exact absurd hsettled (hfails settled)
        | true =>
            rw [step_of_isWord hopen hword, takeWord_awaiting hwaiting hopen] at hstep
            cases hstep
            have hbetween : Between { scan with waiting := .option row (some word) } :=
              ⟨hopen, fun other => by rintro ⟨⟩⟩
            exact ⟨word, rest, _, rfl, hword, hbetween, hrest⟩

/-- Letters that are taken are those of flags, and one more: a flag's, an option's that waits
for its value, or an option's with its value behind it. -/
theorem exists_letters {word letters : Text} (hopen : scan.optionsEnded = false)
    (hne : letters ≠ []) (h : takeLetters g word letters scan = .ok next) :
    ∃ flags row letter rest,
      (∀ flag ∈ flags, flag ∈ g.rows ∧ flag.isFlag = true ∧ flag.short.isSome = true) ∧
      row ∈ g.rows ∧ row.short = some letter ∧
      letters = OptionRow.letters flags ++ letter :: rest ∧
      ((row.isFlag = true ∧ rest = [] ∧ next.Between) ∨
        (row.isFlag = false ∧ rest ≠ [] ∧ next.Between) ∨
        (row.isFlag = false ∧ rest = [] ∧ next.optionsEnded = false ∧
          next.waiting = .option row none)) := by
  induction letters generalizing scan with
  | nil => exact absurd rfl hne
  | cons first others ih =>
      obtain ⟨letter, rest, heq, row, hnamed, htaken⟩ := takeLetters_cases hne h
      cases heq
      obtain ⟨hrow, hshort⟩ := Grammar.mem_of_shortNamed hnamed
      rcases htaken with ⟨hflag, middle, hnow, hrest⟩ | ⟨hoption, hnil, hawait⟩ |
        ⟨hoption, hvalue, hnow⟩
      · -- a flag: it is the last letter, or the letters behind it go on
        have hmiddle := between_of_takeNow hopen hnow
        cases others with
        | nil =>
            cases hrest
            exact ⟨[], row, first, [], by simp, hrow, hshort, rfl, Or.inl ⟨hflag, rfl, hmiddle⟩⟩
        | cons second others =>
            obtain ⟨flags, last, letter, rest, hflags, hlast, hletter, hothers, hend⟩ :=
              ih hmiddle.optionsEnded_eq (List.cons_ne_nil _ _) hrest
            refine ⟨row :: flags, last, letter, rest, ?_, hlast, hletter, ?_, hend⟩
            · intro flag hmem
              rcases List.mem_cons.mp hmem with rfl | hmem
              · exact ⟨hrow, hflag, by rw [hshort]; rfl⟩
              · exact hflags flag hmem
            · rw [letters_cons hshort, List.cons_append, hothers]
      · obtain ⟨settled, hsettled, rfl⟩ := await_eq_ok_iff.mp hawait
        refine ⟨[], row, first, [], by simp, hrow, hshort, by rw [hnil]; rfl,
          Or.inr (Or.inr ⟨hoption, rfl, ?_, rfl⟩)⟩
        rw [settle_keeps hsettled]
        exact hopen
      · exact ⟨[], row, first, others, by simp, hrow, hshort, rfl,
          Or.inr (Or.inl ⟨hoption, hvalue, between_of_takeNow hopen hnow⟩)⟩

/-- A name with an equals sign in it is a name and a value. -/
theorem equals_cases (long : Text) :
    ('=' ∉ long ∧ long.takeWhile (· != '=') = long ∧ long.dropWhile (· != '=') = []) ∨
      ∃ name value, long = name ++ '=' :: value ∧ long.takeWhile (· != '=') = name ∧
        long.dropWhile (· != '=') = '=' :: value := by
  by_cases hmem : '=' ∈ long
  · obtain ⟨name, value, rfl, hname⟩ := List.eq_append_cons_of_mem hmem
    exact Or.inr ⟨name, value, rfl, Lines.takeWhile_ne_append hname value,
      Lines.dropWhile_ne_append hname value⟩
  · have hall := Lines.bne_of_not_mem hmem
    exact Or.inl ⟨hmem, List.takeWhile_eq_self_iff.mpr hall, List.dropWhile_eq_nil_iff.mpr hall⟩

/-- Words begin with a piece, and the scan goes on between that piece and the next one. -/
def BeginsWithPiece (g : Grammar) (words : List Text) (final : Scan) : Prop :=
  ∃ (piece : Piece) (rest : List Text) (after : Scan), piece.Fits g ∧
    words = piece.words ++ rest ∧ after.Between ∧ scanWords g rest after = .ok final

theorem beginsWithPiece_of_long (hscan : scan.Between) {long : Text} {rest : List Text}
    (hname : g.operand.takesDashes = true → g.longNamed (long.takeWhile (· != '=')) ≠ none)
    (htaken : scan.takeLong g ('-' :: '-' :: long) (long.takeWhile (· != '='))
      (match long.dropWhile (· != '=') with
        | [] => none
        | _ :: value => some value) = .ok next)
    (hrest : scanWords g rest next = .ok final) :
    BeginsWithPiece g (('-' :: '-' :: long) :: rest) final := by
  obtain ⟨row, hnamed, hgiven⟩ := takeLong_cases hname htaken
  obtain ⟨hrow, hrowlong⟩ := Grammar.mem_of_longNamed hnamed
  rcases equals_cases long with ⟨-, htakeWhile, hdropWhile⟩ |
    ⟨name, value, heq, htakeWhile, hdropWhile⟩
  · rw [htakeWhile] at hrowlong
    rw [hdropWhile] at hgiven
    subst hrowlong
    rcases hgiven with ⟨hflag, -, hnow⟩ | ⟨-, value, hvalue, -⟩ | ⟨hoption, -, hawait⟩
    · exact ⟨.long row .bare, rest, next, ⟨hrow, hflag⟩, rfl,
        between_of_takeNow hscan.optionsEnded_eq hnow, hrest⟩
    · cases hvalue
    · -- the value is the next word, which belongs to the piece
      obtain ⟨settled, hsettled, rfl⟩ := await_eq_ok_iff.mp hawait
      have hopen : { settled with waiting := .option row none }.optionsEnded = false := by
        rw [settle_keeps hsettled]
        exact hscan.optionsEnded_eq
      obtain ⟨value, rest, after, rfl, hvalue, hafter, hrest⟩ := exists_value hopen rfl hrest
      exact ⟨.long row (.behind value), rest, after, ⟨hrow, hoption, hvalue⟩, rfl, hafter, hrest⟩
  · rw [htakeWhile] at hrowlong
    rw [hdropWhile] at hgiven
    subst hrowlong
    rcases hgiven with ⟨-, hnone, -⟩ | ⟨hoption, value, hvalue, hnow⟩ | ⟨-, hnone, -⟩
    · cases hnone
    · cases hvalue
      refine ⟨.long row (.attached value), rest, next, ⟨hrow, hoption⟩, ?_,
        between_of_takeNow hscan.optionsEnded_eq hnow, hrest⟩
      simp [Piece.words, Placement.spell, heq]
    · cases hnone

theorem beginsWithPiece_of_letters (hscan : scan.Between) {letter : Char} {letters : Text}
    {rest : List Text} (hknown : g.operand.takesDashes = true →
      ∀ known ∈ letter :: letters, (g.shortNamed known).isSome = true)
    (htaken : takeLetters g ('-' :: letter :: letters) (letter :: letters) scan = .ok next)
    (hrest : scanWords g rest next = .ok final) :
    BeginsWithPiece g (('-' :: letter :: letters) :: rest) final := by
  obtain ⟨flags, row, first, others, hflags, hrow, hshort, hletters, hend⟩ :=
    exists_letters hscan.optionsEnded_eq (List.cons_ne_nil _ _) htaken
  -- whatever the last option's value is, its letters and the flags' make a piece
  have hpiece : ∀ value : Placement, value.Fits g row →
      (∀ text, value = .attached text → text = others ∧ others ≠ []) →
      (Piece.letters flags row value).Fits g := by
    intro value hvalue hattached
    refine ⟨hflags, hrow, by rw [hshort]; rfl, hvalue, ?_⟩
    intro text htext
    obtain ⟨rfl, hne⟩ := hattached text htext
    refine ⟨hne, fun hdashes known hmem => hknown hdashes known ?_⟩
    rw [hletters]
    exact List.mem_append_right _ (List.mem_cons_of_mem _ hmem)
  have hwords : '-' :: OptionRow.letters (flags ++ [row]) ++ others =
      '-' :: letter :: letters := by
    rw [hletters, letters_append, letters_cons hshort]
    simp [OptionRow.letters]
  rcases hend with ⟨hflag, rfl, hnext⟩ | ⟨hoption, hne, hnext⟩ | ⟨hoption, rfl, hopen, hwaiting⟩
  · rw [List.append_nil] at hwords
    refine ⟨_, rest, next, hpiece .bare hflag fun text => by rintro ⟨⟩, ?_, hnext, hrest⟩
    simp [Piece.words, Placement.spell, hwords]
  · refine ⟨_, rest, next, hpiece (.attached others) hoption ?_, ?_, hnext, hrest⟩
    · rintro text ⟨⟩
      exact ⟨rfl, hne⟩
    · rw [Piece.words, Placement.spell, List.append_nil, hwords]
      rfl
  · rw [List.append_nil] at hwords
    obtain ⟨value, rest, after, rfl, hvalue, hafter, hrest⟩ := exists_value hopen hwaiting hrest
    refine ⟨_, rest, after, hpiece (.behind value) ⟨hoption, hvalue⟩ fun text => by rintro ⟨⟩, ?_,
      hafter, hrest⟩
    simp [Piece.words, Placement.spell, hwords]

/-- Between two pieces a command line is at its tail, or goes on with a piece. -/
theorem tail_or_beginsWithPiece (hscan : scan.Between) (h : scanWords g words scan = .ok final) :
    g.Tail words ∨ BeginsWithPiece g words final := by
  cases words with
  | nil => exact Or.inl .nil
  | cons word rest =>
      obtain ⟨next, hstep, hrest⟩ := scanWords_cons_eq_ok_iff.mp h
      rcases step_cases hscan.optionsEnded_eq hstep with ⟨rfl, -⟩ | ⟨hword, htake⟩ |
        ⟨long, rfl, -, hname, htaken⟩ | ⟨letter, letters, rfl, -, hknown, htaken⟩
      · exact Or.inl (.ended rest)
      · cases hdashes : g.operand.takesDashes with
        | true => exact Or.inl (.command rest hdashes hword)
        | false =>
            rcases takeWord_cases htake with ⟨row, hwaiting, -⟩ | ⟨-, -, settled, hsettled, rfl⟩ |
              ⟨hcommand, -⟩ | ⟨hcommand, -⟩
            · exact absurd hwaiting (hscan.not_awaiting row)
            · refine Or.inr ⟨.operand word, rest, _, ⟨hdashes, hword⟩, rfl,
                ⟨?_, fun row => by rintro ⟨⟩⟩, hrest⟩
              rw [settle_keeps hsettled]
              exact hscan.optionsEnded_eq
            · rw [hdashes] at hcommand
              cases hcommand
            · rw [hdashes] at hcommand
              cases hcommand
      · exact Or.inr (beginsWithPiece_of_long hscan hname htaken hrest)
      · exact Or.inr (beginsWithPiece_of_letters hscan hknown htaken hrest)

/-- **Every command line that is scanned falls into pieces**, up to the end of the options or to
the first word of a command. -/
theorem exists_pieces (hscan : scan.Between) (h : scanWords g words scan = .ok final) :
    ∃ (pieces : List Piece) (tail : List Text), (∀ piece ∈ pieces, piece.Fits g) ∧
      words = pieces.flatMap Piece.words ++ tail ∧ g.Tail tail := by
  -- along the number of words: a piece has at least one
  induction hlength : words.length using Nat.strong_induction_on generalizing words scan with
  | h length ih =>
      subst hlength
      rcases tail_or_beginsWithPiece hscan h with htail | ⟨piece, rest, after, hpiece, hwords,
        hafter, hrest⟩
      · exact ⟨[], words, by simp, rfl, htail⟩
      · have hshorter : rest.length < words.length := by
          rw [hwords, List.length_append]
          have := List.length_pos_iff.mpr piece.words_ne_nil
          omega
        obtain ⟨pieces, tail, hpieces, htail⟩ := ih _ hshorter hafter hrest rfl
        refine ⟨piece :: pieces, tail, ?_, ?_, htail.2⟩
        · rw [List.forall_mem_cons]
          exact ⟨hpiece, hpieces⟩
        · rw [hwords, htail.1, List.flatMap_cons, List.append_assoc]

end Scan

end RadarProfile
