import Mathlib.Data.List.Basic
import RadarProfile.Options.Tables

set_option autoImplicit false

/-! # Scanning one word

What a word is taken for shows in its first letters (`Grammar.isWord`), unless an option waits
for its value. A scan that goes on after a word says what the word was: each step is taken apart
here once (`Scan.takeWord_cases`, `Scan.takeLong_cases`, `Scan.takeLetters_cases`). -/

namespace RadarProfile

theorem UsageError.map_eq_ok_iff {α β : Type} {result : Except UsageError α} {f : α → β} {b : β} :
    result.map f = .ok b ↔ ∃ a, result = .ok a ∧ f a = b := by
  cases result with
  | error e => simp [Except.map]
  | ok a => simp [Except.map]

/-! ## Words that are no options -/

namespace Grammar

/-- The word is no option and does not end the options: it is taken as a value or as an
operand. -/
def isWord (g : Grammar) : Text → Bool
  | ['-', '-'] => false
  | '-' :: '-' :: long =>
    g.operand.takesDashes && (g.longNamed (long.takeWhile (· != '='))).isNone
  | '-' :: letter :: letters =>
    g.operand.takesDashes && (letter :: letters).any fun letter => (g.shortNamed letter).isNone
  | _ => true

end Grammar

namespace Scan

variable {g : Grammar} {scan : Scan} {word : Text}

/-- Behind the end of the options every word is taken as it is. -/
theorem step_of_optionsEnded (hended : scan.optionsEnded = true) (word : Text) :
    scan.step g word = scan.takeWord g.operand word := by
  unfold step
  rw [hended, if_pos rfl]

theorem step_dashes (hopen : scan.optionsEnded = false) :
    scan.step g ['-', '-'] = .ok { scan with optionsEnded := true } := by
  unfold step
  rw [hopen, if_neg Bool.false_ne_true]
  rfl

theorem step_long (hopen : scan.optionsEnded = false) {long : Text} (h : long ≠ []) :
    scan.step g ('-' :: '-' :: long) = scan.takeLong g ('-' :: '-' :: long)
      (long.takeWhile (· != '='))
      (match long.dropWhile (· != '=') with
        | [] => none
        | _ :: value => some value) := by
  cases long with
  | nil => exact absurd rfl h
  | cons c rest =>
      unfold step
      rw [hopen, if_neg Bool.false_ne_true]
      rfl

theorem step_letters (hopen : scan.optionsEnded = false) {letter : Char} (h : letter ≠ '-')
    (letters : Text) : scan.step g ('-' :: letter :: letters) =
      scan.takeShort g ('-' :: letter :: letters) (letter :: letters) := by
  unfold step
  rw [hopen, if_neg Bool.false_ne_true]
  split
  · rename_i heq
    cases heq
    exact absurd rfl h
  · rename_i heq
    cases heq
    exact absurd rfl h
  · rename_i heq
    cases heq
    rfl
  · rename_i hletters
    exact absurd rfl (hletters letter letters)

theorem step_of_isWord (hopen : scan.optionsEnded = false) (h : g.isWord word = true) :
    scan.step g word = scan.takeWord g.operand word := by
  fun_cases Grammar.isWord g word with
  | case1 => cases h
  | case2 long hlong =>
      rw [step_long hopen hlong]
      simp only [Grammar.isWord, Bool.and_eq_true, Option.isNone_iff_eq_none] at h
      simp only [takeLong, h, if_true]
  | case3 letter letters _ hletter =>
      rw [step_letters hopen hletter]
      simp only [Grammar.isWord] at h
      rw [takeShort, if_pos h]
  | case4 hdashes hlong hletters =>
      unfold step
      rw [hopen, if_neg Bool.false_ne_true]
      simp only

/-! ## Steps taken apart -/

variable {next : Scan} {operand : Operand}

theorem takeNow_eq_ok_iff {row : OptionRow} {result : Except UsageError Setting} :
    scan.takeNow operand row result = .ok next ↔
      ∃ settled, scan.settle operand = .ok settled ∧ settled.give row result = .ok next := by
  unfold takeNow
  cases scan.settle operand with
  | error e => simp
  | ok settled => simp

theorem await_eq_ok_iff {row : OptionRow} :
    scan.await operand row = .ok next ↔ ∃ settled, scan.settle operand = .ok settled ∧
      next = { settled with waiting := .option row none } := by
  rw [await, UsageError.map_eq_ok_iff]
  simp only [eq_comm]

theorem scanWords_cons_eq_ok_iff {rest : List Text} {final : Scan} :
    scanWords g (word :: rest) scan = .ok final ↔
      ∃ next, scan.step g word = .ok next ∧ scanWords g rest next = .ok final := by
  rw [scanWords]
  cases scan.step g word with
  | error e => simp
  | ok next => simp

/-- To ask for help or for the version ends the scan. -/
theorem stopFor_ne_ok {request : UsageError} : scan.stopFor operand request ≠ .ok next := by
  unfold stopFor
  cases scan.settle operand with
  | error e => rintro ⟨⟩
  | ok settled => rintro ⟨⟩

/-- A word that is taken is the value that an option waits for, a single operand, one more word
of a command, or the first one. -/
theorem takeWord_cases (h : scan.takeWord operand word = .ok next) :
    (∃ row, scan.waiting = .option row none ∧ scan.optionsEnded = false ∧
        next = { scan with waiting := .option row (some word) }) ∨
      (operand.takesDashes = false ∧ scan.operandSeen = false ∧
        ∃ settled, scan.settle operand = .ok settled ∧
          next = { settled with waiting := .operand [word], operandSeen := true }) ∨
      (operand.takesDashes = true ∧ ∃ words, scan.waiting = .operand words ∧
        next = { scan with waiting := .operand (words ++ [word]) }) ∨
      (operand.takesDashes = true ∧ ∃ settled, scan.settle operand = .ok settled ∧
        next = { settled with
          waiting := .operand [word], operandSeen := true, optionsEnded := true }) := by
  unfold takeWord at h
  split at h
  · rename_i row hwaiting hopen
    cases h
    exact Or.inl ⟨row, hwaiting, hopen, rfl⟩
  · refine Or.inr ?_
    cases operand with
    | single key variableName kind =>
        refine Or.inl ⟨rfl, ?_⟩
        dsimp only at h
        split at h
        · cases h
        · rename_i hseen
          rw [Bool.not_eq_true] at hseen
          refine ⟨hseen, ?_⟩
          cases hsettle : scan.settle (.single key variableName kind) with
          | error e => rw [hsettle] at h; cases h
          | ok settled =>
              rw [hsettle] at h
              cases h
              exact ⟨settled, rfl, rfl⟩
    | command key =>
        -- the word goes on with the command, or begins it
        refine Or.inr ?_
        dsimp only at h
        split at h
        · rename_i words hwaiting
          cases h
          exact Or.inl ⟨rfl, words, hwaiting, rfl⟩
        · refine Or.inr ⟨rfl, ?_⟩
          cases hsettle : scan.settle (.command key) with
          | error e => rw [hsettle] at h; cases h
          | ok settled =>
              rw [hsettle] at h
              cases h
              exact ⟨settled, rfl, rfl⟩

/-- A long name that is taken belongs to a row. -/
theorem takeLong_cases {word name : Text} {attached : Option Text}
    (hname : g.operand.takesDashes = true → g.longNamed name ≠ none)
    (h : scan.takeLong g word name attached = .ok next) :
    ∃ row, g.longNamed name = some (.row row) ∧
      ((row.isFlag = true ∧ attached = none ∧
          scan.takeNow g.operand row (.ok (.switch true)) = .ok next) ∨
        (row.isFlag = false ∧ ∃ value, attached = some value ∧
          scan.takeNow g.operand row (row.kind.read value) = .ok next) ∨
        (row.isFlag = false ∧ attached = none ∧ scan.await g.operand row = .ok next)) := by
  unfold takeLong at h
  split at h
  · rename_i hnone
    split at h
    · rename_i hdashes
      exact absurd hnone (hname hdashes)
    · cases h
  · split at h
    · cases h
    · exact absurd h stopFor_ne_ok
  · split at h
    · cases h
    · exact absurd h stopFor_ne_ok
  · rename_i row hrow
    refine ⟨row, hrow, ?_⟩
    split at h
    · rename_i hflag
      split at h
      · cases h
      · rename_i hattached
        exact Or.inl ⟨hflag, by simpa using hattached, h⟩
    · rename_i hflag
      rw [Bool.not_eq_true] at hflag
      split at h
      · exact Or.inr (Or.inl ⟨hflag, _, rfl, h⟩)
      · exact Or.inr (Or.inr ⟨hflag, rfl, h⟩)

/-- The letters that are taken are those of flags, and then perhaps that of an option with the
rest of the letters as its value, or with its value in the next word. -/
theorem takeLetters_cases {word letters : Text} (hletters : letters ≠ [])
    (h : takeLetters g word letters scan = .ok next) :
    ∃ letter rest, letters = letter :: rest ∧ ∃ row, g.shortNamed letter = some (.row row) ∧
      ((row.isFlag = true ∧ ∃ middle,
          scan.takeNow g.operand row (.ok (.switch true)) = .ok middle ∧
            takeLetters g word rest middle = .ok next) ∨
        (row.isFlag = false ∧ rest = [] ∧ scan.await g.operand row = .ok next) ∨
        (row.isFlag = false ∧ rest ≠ [] ∧
          scan.takeNow g.operand row (row.kind.read rest) = .ok next)) := by
  cases letters with
  | nil => exact absurd rfl hletters
  | cons letter rest =>
      refine ⟨letter, rest, rfl, ?_⟩
      unfold takeLetters at h
      split at h
      · cases h
      · exact absurd h stopFor_ne_ok
      · exact absurd h stopFor_ne_ok
      · rename_i row hrow
        refine ⟨row, hrow, ?_⟩
        split at h
        · rename_i hflag
          cases hnow : scan.takeNow g.operand row (.ok (.switch true)) with
          | error e => rw [hnow] at h; cases h
          | ok middle =>
              rw [hnow] at h
              exact Or.inl ⟨hflag, middle, rfl, h⟩
        · rename_i hflag
          rw [Bool.not_eq_true] at hflag
          split at h
          · rename_i hrest
            exact Or.inr (Or.inl ⟨hflag, by simpa using hrest, h⟩)
          · rename_i hrest
            exact Or.inr (Or.inr ⟨hflag, by simpa using hrest, h⟩)

/-! ## Letters taken -/

section
variable {letter : Char} {row : OptionRow} (hnamed : g.shortNamed letter = some (.row row))
include hnamed

theorem takeLetters_flag (hflag : row.isFlag = true) (word rest : Text) :
    takeLetters g word (letter :: rest) scan =
      (scan.takeNow g.operand row (.ok (.switch true))).bind (takeLetters g word rest) := by
  rw [takeLetters, hnamed]
  dsimp only
  rw [if_pos hflag]
  cases scan.takeNow g.operand row (.ok (.switch true)) with
  | error e => rfl
  | ok next => rfl

theorem takeLetters_last (hoption : row.isFlag = false) (word : Text) :
    takeLetters g word [letter] scan = scan.await g.operand row := by
  rw [takeLetters, hnamed]
  simp only [hoption, Bool.false_eq_true, if_false, List.isEmpty_nil, if_true]

theorem takeLetters_value (hoption : row.isFlag = false) (word : Text) {rest : Text}
    (hne : rest ≠ []) :
    takeLetters g word (letter :: rest) scan =
      scan.takeNow g.operand row (row.kind.read rest) := by
  rw [takeLetters, hnamed]
  simp only [hoption, Bool.false_eq_true, if_false, List.isEmpty_eq_false_iff.mpr hne]

end

/-! ## Words taken -/

theorem takeWord_awaiting {row : OptionRow} (hwaiting : scan.waiting = .option row none)
    (hopen : scan.optionsEnded = false) (operand : Operand) (word : Text) :
    scan.takeWord operand word = .ok { scan with waiting := .option row (some word) } := by
  unfold takeWord
  rw [hwaiting, hopen]

/-- The first word that is no value is the operand, if there is a single one. -/
theorem takeWord_single {settled : Scan} (hsingle : operand.takesDashes = false)
    (hwaiting : ∀ row, scan.waiting ≠ .option row none) (hseen : scan.operandSeen = false)
    (hsettle : scan.settle operand = .ok settled) (word : Text) :
    scan.takeWord operand word =
      .ok { settled with waiting := .operand [word], operandSeen := true } := by
  unfold takeWord
  split
  · rename_i row hawaiting _
    exact absurd hawaiting (hwaiting row)
  · cases operand with
    | single key variableName kind =>
        dsimp only
        rw [hseen, if_neg Bool.false_ne_true, hsettle]
        rfl
    | command key => cases hsingle

theorem takeWord_first {settled : Scan} (hcommand : operand.takesDashes = true)
    (hsettle : scan.settle operand = .ok settled)
    (hwaiting : ∀ words, scan.waiting ≠ .operand words)
    (hvalue : ∀ row, scan.waiting ≠ .option row none) (word : Text) :
    scan.takeWord operand word = .ok { settled with
      waiting := .operand [word], operandSeen := true, optionsEnded := true } := by
  unfold takeWord
  split
  · rename_i row hawaiting _
    exact absurd hawaiting (hvalue row)
  · cases operand with
    | single key variableName kind => cases hcommand
    | command key =>
        dsimp only
        split
        · rename_i words hoperand
          exact absurd hoperand (hwaiting words)
        · rw [hsettle]
          rfl

theorem takeWord_more {words : List Text} (hcommand : operand.takesDashes = true)
    (hwaiting : scan.waiting = .operand words) (word : Text) :
    scan.takeWord operand word = .ok { scan with waiting := .operand (words ++ [word]) } := by
  unfold takeWord
  rw [hwaiting]
  cases operand with
  | single key variableName kind => cases hcommand
  | command key => rfl

/-- **Every step of a scan**, as long as the options go on: it ends them, or it takes a word, a
long name, or the letters behind a dash. Where a command may begin with a dash, names and letters
are taken for options only if they are known. -/
theorem step_cases (hopen : scan.optionsEnded = false) (h : scan.step g word = .ok next) :
    (word = ['-', '-'] ∧ next = { scan with optionsEnded := true }) ∨
      (g.isWord word = true ∧ scan.takeWord g.operand word = .ok next) ∨
      (∃ long, word = '-' :: '-' :: long ∧ long ≠ [] ∧
        (g.operand.takesDashes = true → g.longNamed (long.takeWhile (· != '=')) ≠ none) ∧
        scan.takeLong g word (long.takeWhile (· != '='))
          (match long.dropWhile (· != '=') with
            | [] => none
            | _ :: value => some value) = .ok next) ∨
      (∃ letter letters, word = '-' :: letter :: letters ∧ letter ≠ '-' ∧
        (g.operand.takesDashes = true →
          ∀ known ∈ letter :: letters, (g.shortNamed known).isSome = true) ∧
        takeLetters g word (letter :: letters) scan = .ok next) := by
  by_cases hword : g.isWord word = true
  · rw [step_of_isWord hopen hword] at h
    exact Or.inr (Or.inl ⟨hword, h⟩)
  · fun_cases Grammar.isWord g word with
    | case1 =>
        rw [step_dashes hopen] at h
        cases h
        exact Or.inl ⟨rfl, rfl⟩
    | case2 long hlong =>
        rw [step_long hopen hlong] at h
        refine Or.inr (Or.inr (Or.inl ⟨long, rfl, hlong, ?_, h⟩))
        intro hdashes hnone
        exact hword (by simp [Grammar.isWord, hdashes, hnone])
    | case3 letter letters _ hletter =>
        simp only [Grammar.isWord] at hword
        rw [step_letters hopen hletter, takeShort, if_neg hword] at h
        refine Or.inr (Or.inr (Or.inr ⟨letter, letters, rfl, hletter, ?_, h⟩))
        intro hdashes known hknown
        rw [hdashes, Bool.true_and, List.any_eq_true] at hword
        rw [Option.isSome_iff_ne_none]
        intro hnone
        exact hword ⟨known, hknown, by rw [hnone]; rfl⟩
    | case4 hdashes hlong hletters => exact absurd (by simp only [Grammar.isWord]) hword

/-- An option is taken only after what waits was read. -/
theorem settles_of_step (hopen : scan.optionsEnded = false) (hword : g.isWord word = false)
    (hdashes : word ≠ ['-', '-']) (h : scan.step g word = .ok next) :
    ∃ settled, scan.settle g.operand = .ok settled := by
  rcases step_cases hopen h with ⟨hended, -⟩ | ⟨htaken, -⟩ | ⟨long, -, -, hname, hlong⟩ |
    ⟨letter, letters, -, -, -, hletters⟩
  · exact absurd hended hdashes
  · rw [hword] at htaken
    cases htaken
  · obtain ⟨row, -, ⟨-, -, hnow⟩ | ⟨-, value, -, hnow⟩ | ⟨-, -, hawait⟩⟩ :=
      takeLong_cases hname hlong
    · obtain ⟨settled, hsettled, -⟩ := takeNow_eq_ok_iff.mp hnow
      exact ⟨settled, hsettled⟩
    · obtain ⟨settled, hsettled, -⟩ := takeNow_eq_ok_iff.mp hnow
      exact ⟨settled, hsettled⟩
    · obtain ⟨settled, hsettled, -⟩ := await_eq_ok_iff.mp hawait
      exact ⟨settled, hsettled⟩
  · obtain ⟨first, rest, -, row, -, ⟨-, middle, hnow, -⟩ | ⟨-, -, hawait⟩ | ⟨-, -, hnow⟩⟩ :=
      takeLetters_cases (List.cons_ne_nil _ _) hletters
    · obtain ⟨settled, hsettled, -⟩ := takeNow_eq_ok_iff.mp hnow
      exact ⟨settled, hsettled⟩
    · obtain ⟨settled, hsettled, -⟩ := await_eq_ok_iff.mp hawait
      exact ⟨settled, hsettled⟩
    · obtain ⟨settled, hsettled, -⟩ := takeNow_eq_ok_iff.mp hnow
      exact ⟨settled, hsettled⟩

end Scan

end RadarProfile
