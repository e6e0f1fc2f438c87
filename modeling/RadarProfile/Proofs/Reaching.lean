import Mathlib.Data.List.TakeWhile
import RadarProfile.Proofs.Lines
import RadarProfile.Proofs.Pieces

set_option autoImplicit false

/-! # Scanning pieces

A scan does not read a value when it meets it, but when the next piece comes, so states between
two pieces are compared by what they come to once what waits is read (`Scan.Holds`). From a state
that holds some settings, the words of a piece lead to one that holds the settings of the piece as
well; and if one of these cannot be taken, no words that follow make the scan succeed
(`Scan.Reaches`). -/

namespace RadarProfile

namespace Scan

variable {g : Grammar} {scan next : Scan} {given : List Given}

def atRest (g : Grammar) (given : List Given) : Scan :=
  ⟨given, .nothing, given.any (·.key == g.operand.key), false⟩

/-- Once what waits is read, these settings were given, and the options go on: no command has
begun. -/
structure Holds (g : Grammar) (scan : Scan) (given : List Given) : Prop where
  settle_eq : scan.settle g.operand = .ok (atRest g given)
  not_command : g.operand.takesDashes = true → ∀ words, scan.waiting ≠ .operand words

theorem holds_atRest (g : Grammar) (given : List Given) : (atRest g given).Holds g given :=
  ⟨rfl, fun _ words => by rintro ⟨⟩⟩

theorem give_of_take {r : Reading} {given : List Given} (h : r.take scan.given = some given) :
    scan.give r.row r.result = .ok { scan with given := given } := by
  obtain ⟨hfresh, new, hnew, rfl⟩ := Reading.take_eq_some_iff.mp h
  obtain ⟨hresult, hkey⟩ := Reading.given?_eq_some_iff.mp hnew
  have hlacks : (!r.row.repeats && !scan.lacks r.row.key) = false := by
    cases hrepeats : r.row.repeats with
    | true => rfl
    | false => simpa [lacks] using hfresh hrepeats
  unfold give
  rw [hlacks, if_neg Bool.false_ne_true, hresult, ← hkey]

theorem give_of_take_none {r : Reading} (h : r.take scan.given = none) :
    ∃ e, scan.give r.row r.result = .error e := by
  unfold give
  split
  · exact ⟨_, rfl⟩
  · rename_i hlacks
    cases hresult : r.result with
    | error e => exact ⟨e, rfl⟩
    | ok setting =>
        refine absurd (Reading.take_eq_some_iff.mpr ⟨?_, ⟨r.row.key, setting⟩, ?_, rfl⟩)
          (Option.eq_none_iff_forall_not_mem.mp h _)
        · intro hrepeats
          simpa [lacks, hrepeats] using hlacks
        · exact Reading.given?_eq_some_iff.mpr ⟨hresult, rfl⟩

theorem settle_option {operand : Operand} {row : OptionRow} {value : Text}
    (h : scan.waiting = .option row (some value)) :
    scan.settle operand = { scan with waiting := .nothing }.give row (row.kind.read value) := by
  unfold settle
  rw [h]

theorem settle_awaiting {operand : Operand} {row : OptionRow}
    (h : scan.waiting = .option row none) :
    scan.settle operand = .error .missingValue := by
  unfold settle
  rw [h]

theorem give_keeps {row : OptionRow} {result : Except UsageError Setting}
    (h : scan.give row result = .ok next) : next = { scan with given := next.given } := by
  cases htake : (Reading.mk row result).take scan.given with
  | none =>
      obtain ⟨e, herror⟩ := give_of_take_none htake
      rw [herror] at h
      cases h
  | some given =>
      rw [give_of_take htake] at h
      cases h
      rfl

theorem settle_keeps {operand : Operand} (h : scan.settle operand = .ok next) :
    next = { scan with given := next.given, waiting := .nothing } := by
  cases hwaiting : scan.waiting with
  | nothing =>
      unfold settle at h
      rw [hwaiting] at h
      cases h
      rfl
  | option row value? =>
      cases value? with
      | none =>
          rw [settle_awaiting hwaiting] at h
          cases h
      | some value =>
          rw [settle_option hwaiting] at h
          exact give_keeps h
  | operand words =>
      unfold settle at h
      rw [hwaiting] at h
      dsimp only at h
      cases hgiven : giveWords operand.key operand.kind words with
      | error e => rw [hgiven] at h; cases h
      | ok given =>
          rw [hgiven] at h
          cases h
          rfl

theorem Holds.optionsEnded_eq (h : scan.Holds g given) : scan.optionsEnded = false :=
  (congrArg optionsEnded (settle_keeps h.settle_eq)).symm

theorem Holds.operandSeen_eq (h : scan.Holds g given) :
    scan.operandSeen = given.any (·.key == g.operand.key) :=
  (congrArg operandSeen (settle_keeps h.settle_eq)).symm

theorem Holds.not_awaiting (h : scan.Holds g given) (row : OptionRow) :
    scan.waiting ≠ .option row none := by
  intro hwaiting
  have hsettle := h.settle_eq
  rw [settle_awaiting hwaiting] at hsettle
  cases hsettle

/-! ### What cannot be read any more -/

/-- What waits cannot be read, and no further word changes it. -/
structure Doomed (g : Grammar) (scan : Scan) : Prop where
  fails : ∀ settled, scan.settle g.operand ≠ .ok settled
  waits : (∃ row value?, scan.waiting = .option row value? ∧
      (value? = none → scan.optionsEnded = true)) ∨
    (g.operand.takesDashes = false ∧ ∃ words, scan.waiting = .operand words)

theorem Doomed.takeWord_ne_ok (h : scan.Doomed g) (word : Text) :
    scan.takeWord g.operand word ≠ .ok next := by
  intro htake
  -- what waits has its value or no longer gets one, and every other way begins by reading it
  rcases takeWord_cases htake with ⟨row, hwaiting, hopen, -⟩ | ⟨-, -, settled, hsettled, -⟩ |
    ⟨hdashes, words, hwaiting, -⟩ | ⟨-, settled, hsettled, -⟩
  · rcases h.waits with ⟨row', value?, hwaiting', hended⟩ | ⟨-, words, hwaiting'⟩
    · rw [hwaiting] at hwaiting'
      cases hwaiting'
      rw [hended rfl] at hopen
      cases hopen
    · rw [hwaiting] at hwaiting'
      cases hwaiting'
  · exact h.fails settled hsettled
  · rcases h.waits with ⟨row', value?, hwaiting', -⟩ | ⟨hsingle, -⟩
    · rw [hwaiting] at hwaiting'
      cases hwaiting'
    · rw [hsingle] at hdashes
      cases hdashes
  · exact h.fails settled hsettled

/-- What waits is read the same when the options have ended. -/
theorem settle_endOptions (scan : Scan) (operand : Operand) :
    { scan with optionsEnded := true }.settle operand =
      (scan.settle operand).map ({ · with optionsEnded := true }) := by
  unfold settle
  cases scan.waiting with
  | nothing => rfl
  | option row value? =>
      cases value? with
      | none => rfl
      | some value =>
          unfold give lacks
          dsimp only
          split
          · rfl
          · cases row.kind.read value with
            | error e => rfl
            | ok setting => rfl
  | operand words =>
      dsimp only
      cases giveWords operand.key operand.kind words with
      | error e => rfl
      | ok given => rfl

theorem Doomed.scanWords_ne_ok (h : scan.Doomed g) (words : List Text) (final : Scan) :
    scanWords g words scan ≠ .ok final := by
  -- the end of the options is the only word that is taken, and it leaves what waits as it is
  induction words generalizing scan with
  | nil => exact h.fails final
  | cons word rest ih =>
      intro hscan
      obtain ⟨next, hstep, hrest⟩ := scanWords_cons_eq_ok_iff.mp hscan
      cases hended : scan.optionsEnded with
      | true =>
          rw [step_of_optionsEnded hended] at hstep
          exact h.takeWord_ne_ok word hstep
      | false =>
          by_cases hdashes : word = ['-', '-']
          · rw [hdashes, step_dashes hended] at hstep
            cases hstep
            refine ih ⟨fun settled hsettled => ?_, ?_⟩ hrest
            · rw [settle_endOptions] at hsettled
              cases hsettle : scan.settle g.operand with
              | error e => rw [hsettle] at hsettled; cases hsettled
              | ok before => exact h.fails before hsettle
            · rcases h.waits with ⟨row, value?, hwaiting, -⟩ | hoperand
              · exact Or.inl ⟨row, value?, hwaiting, fun _ => rfl⟩
              · exact Or.inr hoperand
          · cases hword : g.isWord word with
            | true =>
                rw [step_of_isWord hended hword] at hstep
                exact h.takeWord_ne_ok word hstep
            | false =>
                obtain ⟨settled, hsettled⟩ := settles_of_step hended hword hdashes hstep
                exact h.fails settled hsettled

/-! ### Reaching settings -/

/-- Words lead a scan to the settings that are given, whatever follows them; or what follows
cannot help any more. -/
def Reaches (g : Grammar) (scan : Scan) (words : List Text) : Option (List Given) → Prop
  | some given => ∃ next : Scan, next.Holds g given ∧
      ∀ rest, scanWords g (words ++ rest) scan = scanWords g rest next
  | none => ∀ rest final, scanWords g (words ++ rest) scan ≠ .ok final

theorem Reaches.of_step {word : Text} {words : List Text} {outcome : Option (List Given)}
    (hstep : scan.step g word = .ok next) (h : next.Reaches g words outcome) :
    scan.Reaches g (word :: words) outcome := by
  have hscan : ∀ rest, scanWords g (word :: words ++ rest) scan =
      scanWords g (words ++ rest) next := by
    intro rest
    rw [List.cons_append, scanWords, hstep]
  cases outcome with
  | none =>
      intro rest final
      rw [hscan]
      exact h rest final
  | some given =>
      obtain ⟨last, hholds, hlast⟩ := h
      exact ⟨last, hholds, fun rest => (hscan rest).trans (hlast rest)⟩

theorem Reaches.of_step_ne_ok {word : Text} {words : List Text}
    (hstep : ∀ next, scan.step g word ≠ .ok next) : scan.Reaches g (word :: words) none := by
  intro rest final hscan
  obtain ⟨next, hnext, -⟩ := scanWords_cons_eq_ok_iff.mp hscan
  exact hstep next hnext

theorem Reaches.append {front back : List Text} {outcome : List Given → Option (List Given)}
    {middle : Option (List Given)} (hfront : scan.Reaches g front middle)
    (hback : ∀ given, middle = some given → ∀ next : Scan, next.Holds g given →
      next.Reaches g back (outcome given)) :
    scan.Reaches g (front ++ back) (middle.bind outcome) := by
  cases middle with
  | none =>
      intro rest final
      rw [List.append_assoc]
      exact hfront (back ++ rest) final
  | some given =>
      obtain ⟨next, hholds, hnext⟩ := hfront
      have hreaches := hback given rfl next hholds
      rw [Option.bind_some]
      cases houtcome : outcome given with
      | none =>
          rw [houtcome] at hreaches
          intro rest final
          rw [List.append_assoc, hnext]
          exact hreaches rest final
      | some given' =>
          rw [houtcome] at hreaches
          obtain ⟨last, hlast, hrest⟩ := hreaches
          refine ⟨last, hlast, fun rest => ?_⟩
          rw [List.append_assoc, hnext, hrest]

theorem reaches_of_holds (h : scan.Holds g given) : scan.Reaches g [] (some given) :=
  ⟨scan, h, fun _ => rfl⟩

theorem give_atRest_eq_ok_iff {r : Reading} (hkey : r.row.key ≠ g.operand.key) :
    (atRest g given).give r.row r.result = .ok next ↔
      ∃ given', r.take given = some given' ∧ next = atRest g given' := by
  cases htake : r.take given with
  | none =>
      obtain ⟨e, herror⟩ : ∃ e, (atRest g given).give r.row r.result = .error e :=
        give_of_take_none htake
      rw [herror]
      simp
  | some given' =>
      obtain ⟨-, new, hnew, rfl⟩ := Reading.take_eq_some_iff.mp htake
      have hseen : (given ++ [new]).any (·.key == g.operand.key) =
          given.any (·.key == g.operand.key) := by
        simp [List.any_append, Reading.key_of_given? hnew, hkey]
      have hgive : (atRest g given).give r.row r.result =
          .ok { atRest g given with given := given ++ [new] } := give_of_take htake
      rw [hgive, Except.ok.injEq]
      simp only [Option.some.injEq, exists_eq_left', atRest, hseen]
      exact eq_comm

/-- A value that waits is read at once or never. -/
theorem reaches_waiting {row : OptionRow} (hkey : row.key ≠ g.operand.key) (given : List Given)
    (value : Text) : { atRest g given with waiting := .option row (some value) }.Reaches g []
      (Reading.take given ⟨row, row.kind.read value⟩) := by
  have hsettle : { atRest g given with waiting := .option row (some value) }.settle g.operand =
      (atRest g given).give row (row.kind.read value) := settle_option rfl
  have hgive : ∀ next, (atRest g given).give row (row.kind.read value) = .ok next ↔
      ∃ given', Reading.take given ⟨row, row.kind.read value⟩ = some given' ∧
        next = atRest g given' :=
    fun next => give_atRest_eq_ok_iff (r := ⟨row, row.kind.read value⟩) hkey
  cases htake : Reading.take given ⟨row, row.kind.read value⟩ with
  | some given' =>
      refine reaches_of_holds ⟨?_, fun _ words => by rintro ⟨⟩⟩
      rw [hsettle]
      exact (hgive _).mpr ⟨given', htake, rfl⟩
  | none =>
      refine Doomed.scanWords_ne_ok ⟨fun settled hsettled => ?_, ?_⟩
      · rw [hsettle] at hsettled
        obtain ⟨given', htake', -⟩ := (hgive settled).mp hsettled
        rw [htake] at htake'
        cases htake'
      · exact Or.inl ⟨row, some value, rfl, fun h => by cases h⟩

/-- An operand that waits is read at once or never. -/
theorem reaches_operand (hsingle : g.operand.takesDashes = false)
    (hfresh : given.any (·.key == g.operand.key) = false) (word : Text) :
    { atRest g given with waiting := .operand [word], operandSeen := true }.Reaches g []
      (Reading.take given ⟨g.operand.row, g.operand.kind.read word⟩) := by
  have htake : Reading.take given ⟨g.operand.row, g.operand.kind.read word⟩ =
      (g.operand.kind.read word).toOption.map fun setting =>
        given ++ [⟨g.operand.key, setting⟩] := by
    have hrefused : (!g.operand.row.repeats && given.any (·.key == g.operand.row.key)) = false := by
      rw [Operand.row, hfresh, Bool.and_false]
    rw [Reading.take, hrefused, if_neg Bool.false_ne_true, Reading.given?, Option.map_map]
    rfl
  rw [htake]
  cases hread : g.operand.kind.read word with
  | ok setting =>
      refine reaches_of_holds ⟨?_, fun hcommand => ?_⟩
      · simp [settle, giveWords, hread, atRest]
      · rw [hsingle] at hcommand
        cases hcommand
  | error e =>
      refine Doomed.scanWords_ne_ok ⟨fun settled hsettled => ?_, Or.inr ⟨hsingle, [word], rfl⟩⟩
      simp [settle, giveWords, hread] at hsettled

/-! ### One piece -/

section
variable {before : Scan} {word : Text} (h : before.Holds g given)
include h

theorem Holds.takeNow_eq_ok_iff {r : Reading} (hkey : r.row.key ≠ g.operand.key) :
    before.takeNow g.operand r.row r.result = .ok next ↔
      ∃ given', r.take given = some given' ∧ next = atRest g given' := by
  rw [Scan.takeNow_eq_ok_iff]
  constructor
  · rintro ⟨settled, hsettled, hgive⟩
    rw [h.settle_eq] at hsettled
    cases hsettled
    exact (give_atRest_eq_ok_iff hkey).mp hgive
  · intro htake
    exact ⟨_, h.settle_eq, (give_atRest_eq_ok_iff hkey).mpr htake⟩

theorem reaches_takeNow {r : Reading} (hkey : r.row.key ≠ g.operand.key)
    (hstep : scan.step g word = before.takeNow g.operand r.row r.result) :
    scan.Reaches g [word] (Reading.takeAll given [r]) := by
  rw [Reading.takeAll_singleton]
  cases htake : r.take given with
  | none =>
      refine .of_step_ne_ok fun next hnext => ?_
      rw [hstep, h.takeNow_eq_ok_iff hkey] at hnext
      obtain ⟨given', htake', -⟩ := hnext
      rw [htake] at htake'
      cases htake'
  | some given' =>
      refine .of_step (hstep.trans ?_) (reaches_of_holds (holds_atRest g given'))
      exact (h.takeNow_eq_ok_iff hkey).mpr ⟨given', htake, rfl⟩

theorem reaches_await {row : OptionRow} (hkey : row.key ≠ g.operand.key) {value : Text}
    (hvalue : g.isWord value = true) (hstep : scan.step g word = before.await g.operand row) :
    scan.Reaches g [word, value] (Reading.takeAll given [⟨row, row.kind.read value⟩]) := by
  rw [Reading.takeAll_singleton]
  have hawait : before.await g.operand row =
      .ok { atRest g given with waiting := .option row none } :=
    await_eq_ok_iff.mpr ⟨_, h.settle_eq, rfl⟩
  refine .of_step (hstep.trans hawait) (.of_step ?_ (reaches_waiting hkey given value))
  exact step_of_isWord rfl hvalue

end

theorem reaches_long (hg : g.WellFormed) (h : scan.Holds g given) {row : OptionRow}
    (hrow : row ∈ g.rows) {value : Placement} (hfits : value.Fits g row) :
    scan.Reaches g (Piece.long row value).words
      (Reading.takeAll given ((Piece.long row value).readings g)) := by
  have hkey := hg.key_ne row hrow
  have hopen := h.optionsEnded_eq
  have hlong := Lines.bne_of_not_mem (hg.equals_not_mem row hrow)
  have hnamed := hg.longNamed_eq row hrow
  cases value with
  | bare =>
      refine reaches_takeNow h (r := ⟨row, .ok (.switch true)⟩) hkey ?_
      rw [step_long hopen (hg.long_ne_nil row hrow), List.takeWhile_eq_self_iff.mpr hlong,
        List.dropWhile_eq_nil_iff.mpr hlong, takeLong, hnamed]
      have hflag : row.isFlag = true := hfits
      simp only [hflag, if_true, Option.isSome_none, Bool.false_eq_true, if_false]
  | behind value =>
      refine reaches_await h hkey hfits.2 ?_
      rw [step_long hopen (hg.long_ne_nil row hrow), List.takeWhile_eq_self_iff.mpr hlong,
        List.dropWhile_eq_nil_iff.mpr hlong, takeLong, hnamed]
      simp only [hfits.1, Bool.false_eq_true, if_false]
  | attached value =>
      have hword : '-' :: '-' :: row.long ++ ['='] ++ value =
          '-' :: '-' :: (row.long ++ '=' :: value) := by
        simp only [List.cons_append, List.append_assoc, List.nil_append]
      refine reaches_takeNow h (r := ⟨row, row.kind.read value⟩) hkey ?_
      have hequals := hg.equals_not_mem row hrow
      rw [hword, step_long hopen (by simp), Lines.takeWhile_ne_append hequals,
        Lines.dropWhile_ne_append hequals, takeLong, hnamed]
      have hoption : row.isFlag = false := hfits
      simp only [hoption, Bool.false_eq_true, if_false]

/-! ### Letters behind one dash -/

theorem letters_cons {row : OptionRow} {letter : Char} (h : row.short = some letter)
    (rows : List OptionRow) : OptionRow.letters (row :: rows) = letter :: OptionRow.letters rows :=
  List.filterMap_cons_some h

theorem letters_append (front back : List OptionRow) :
    OptionRow.letters (front ++ back) = OptionRow.letters front ++ OptionRow.letters back :=
  List.filterMap_append

/-- The letters of flags are gone through one after the other. -/
theorem takeLetters_flags (hg : g.WellFormed) (h : scan.Holds g given) (word : Text)
    {flags : List OptionRow}
    (hflags : ∀ flag ∈ flags, flag ∈ g.rows ∧ flag.isFlag = true ∧ flag.short.isSome = true) :
    (∀ given', Reading.takeAll given (flags.map Reading.flag) = some given' →
      ∃ next : Scan, next.Holds g given' ∧ ∀ rest,
        takeLetters g word (OptionRow.letters flags ++ rest) scan =
          takeLetters g word rest next) ∧
    (Reading.takeAll given (flags.map Reading.flag) = none → ∀ rest next,
      takeLetters g word (OptionRow.letters flags ++ rest) scan ≠ .ok next) := by
  -- along the flags: one that is taken is given at once, so the next one finds a state at rest
  induction flags generalizing scan given with
  | nil =>
      refine ⟨fun given' htaken => ⟨scan, ?_, fun rest => rfl⟩, fun hnone => by cases hnone⟩
      cases htaken
      exact h
  | cons flag flags ih =>
      obtain ⟨hrow, hflag, hshort⟩ := hflags flag List.mem_cons_self
      obtain ⟨letter, hletter⟩ := Option.isSome_iff_exists.mp hshort
      have hstep : ∀ rest, takeLetters g word (OptionRow.letters (flag :: flags) ++ rest) scan =
          (scan.takeNow g.operand flag (.ok (.switch true))).bind
            (takeLetters g word (OptionRow.letters flags ++ rest)) := by
        intro rest
        rw [letters_cons hletter, List.cons_append]
        exact takeLetters_flag (hg.shortNamed_of_short hrow hletter) hflag word _
      have hnow : ∀ next, scan.takeNow g.operand flag (.ok (.switch true)) = .ok next ↔
          ∃ given', (Reading.flag flag).take given = some given' ∧ next = atRest g given' :=
        fun next => h.takeNow_eq_ok_iff (r := Reading.flag flag) (hg.key_ne flag hrow)
      simp only [List.map_cons, Reading.takeAll_cons, hstep]
      cases htake : (Reading.flag flag).take given with
      | none =>
          refine ⟨fun given' htaken => ?_, fun _ rest next hnext => ?_⟩
          · cases htaken
          · cases hresult : scan.takeNow g.operand flag (.ok (.switch true)) with
            | error e => rw [hresult] at hnext; cases hnext
            | ok middle =>
                obtain ⟨given', htake', -⟩ := (hnow middle).mp hresult
                rw [htake] at htake'
                cases htake'
      | some given' =>
          rw [(hnow _).mpr ⟨given', htake, rfl⟩]
          exact ih (holds_atRest g given') fun other hother =>
            hflags other (List.mem_cons_of_mem _ hother)

/-- A word of letters is gone through letter by letter, if all of them are known. -/
theorem step_takeLetters (hopen : scan.optionsEnded = false) {letters : Text}
    (hne : letters ≠ []) (hdash : letters.head? ≠ some '-')
    (hknown : g.operand.takesDashes = true →
      ∀ letter ∈ letters, (g.shortNamed letter).isSome = true) :
    scan.step g ('-' :: letters) = takeLetters g ('-' :: letters) letters scan := by
  cases letters with
  | nil => exact absurd rfl hne
  | cons letter letters =>
      have hletter : letter ≠ '-' := fun h => hdash (congrArg some h)
      rw [step_letters hopen hletter, takeShort, if_neg]
      rw [Bool.and_eq_true, List.any_eq_true]
      rintro ⟨hdashes, known, hmem, hnone⟩
      rw [Option.isNone_iff_eq_none] at hnone
      have hsome := hknown hdashes known hmem
      rw [hnone] at hsome
      cases hsome

/-- The first word of a piece of letters: they are all known, and the first is no dash. -/
theorem step_flags (hg : g.WellFormed) (hopen : scan.optionsEnded = false)
    {flags : List OptionRow}
    (hflags : ∀ flag ∈ flags, flag ∈ g.rows ∧ flag.isFlag = true ∧ flag.short.isSome = true)
    {row : OptionRow} (hrow : row ∈ g.rows) {letter : Char} (hletter : row.short = some letter)
    {rest : Text} (hrest : g.operand.takesDashes = true →
      ∀ known ∈ rest, (g.shortNamed known).isSome = true) :
    scan.step g ('-' :: (OptionRow.letters flags ++ letter :: rest)) =
      takeLetters g ('-' :: (OptionRow.letters flags ++ letter :: rest))
        (OptionRow.letters flags ++ letter :: rest) scan := by
  have hrows : ∀ known, known ∈ OptionRow.letters flags ∨ known = letter →
      ∃ other ∈ g.rows, other.short = some known := by
    rintro known (hmem | rfl)
    · obtain ⟨other, hother, hknown⟩ := List.mem_filterMap.mp hmem
      exact ⟨other, (hflags other hother).1, hknown⟩
    · exact ⟨row, hrow, hletter⟩
  refine step_takeLetters hopen (by simp) ?_ ?_
  · -- the first letter is a row's, and no row's letter is a dash
    intro hhead
    have hdash : '-' ∈ OptionRow.letters flags ∨ '-' = letter := by
      cases hfront : OptionRow.letters flags with
      | nil =>
          rw [hfront] at hhead
          exact Or.inr (Option.some.inj hhead).symm
      | cons first others =>
          rw [hfront] at hhead
          obtain rfl : first = '-' := Option.some.inj hhead
          exact Or.inl List.mem_cons_self
    obtain ⟨other, hother, hshort⟩ := hrows '-' hdash
    exact hg.short_ne other hother hshort
  · intro hdashes known hmem
    rw [List.mem_append, List.mem_cons, ← or_assoc] at hmem
    rcases hmem with hmem | hmem
    · obtain ⟨other, hother, hshort⟩ := hrows known hmem
      rw [hg.shortNamed_of_short hother hshort]
      rfl
    · exact hrest hdashes known hmem

/-- Options by their letters. -/
theorem reaches_letters (hg : g.WellFormed) (h : scan.Holds g given) {flags : List OptionRow}
    {row : OptionRow} {value : Placement} (hfits : (Piece.letters flags row value).Fits g) :
    scan.Reaches g (Piece.letters flags row value).words
      (Reading.takeAll given ((Piece.letters flags row value).readings g)) := by
  obtain ⟨hflags, hrow, hshort, hvalue, hattached⟩ := hfits
  obtain ⟨letter, hletter⟩ := Option.isSome_iff_exists.mp hshort
  have hkey := hg.key_ne row hrow
  have hnamed := hg.shortNamed_of_short hrow hletter
  have hletters : OptionRow.letters (flags ++ [row]) = OptionRow.letters flags ++ [letter] := by
    rw [letters_append, letters_cons hletter]
    rfl
  have hfront := fun word => takeLetters_flags hg h word hflags
  rw [Piece.readings, Reading.takeAll_append]
  cases hmiddle : Reading.takeAll given (flags.map Reading.flag) with
  | none =>
      -- the flags fail, whatever the last letter is
      have hfails : ∀ rest, (g.operand.takesDashes = true →
          ∀ known ∈ rest, (g.shortNamed known).isSome = true) →
          ∀ next, scan.step g ('-' :: (OptionRow.letters flags ++ letter :: rest)) ≠
            .ok next := by
        intro rest hrest next
        rw [step_flags hg h.optionsEnded_eq hflags hrow hletter hrest]
        exact (hfront _).2 hmiddle _ _
      cases value with
      | bare =>
          rw [Piece.words, hletters]
          exact .of_step_ne_ok (hfails [] (by simp))
      | behind value =>
          rw [Piece.words, hletters]
          exact .of_step_ne_ok (hfails [] (by simp))
      | attached value =>
          rw [Piece.words, hletters, Placement.spell, List.append_nil, List.cons_append,
            List.append_assoc, List.singleton_append]
          exact .of_step_ne_ok (hfails value (hattached value rfl).2)
  | some given' =>
      rw [Option.bind_some]
      -- behind the flags it goes on as with a single letter
      have hstep : ∀ rest, (g.operand.takesDashes = true →
          ∀ known ∈ rest, (g.shortNamed known).isSome = true) → ∃ before : Scan,
          before.Holds g given' ∧
            scan.step g ('-' :: (OptionRow.letters flags ++ letter :: rest)) =
              takeLetters g ('-' :: (OptionRow.letters flags ++ letter :: rest))
                (letter :: rest) before := by
        intro rest hrest
        obtain ⟨before, hbefore, hlast⟩ :=
          (hfront ('-' :: (OptionRow.letters flags ++ letter :: rest))).1 given' hmiddle
        exact ⟨before, hbefore, (step_flags hg h.optionsEnded_eq hflags hrow hletter hrest).trans
          (hlast _)⟩
      cases value with
      | bare =>
          obtain ⟨before, hbefore, hlast⟩ := hstep [] (by simp)
          rw [Piece.words, hletters]
          refine reaches_takeNow hbefore (r := ⟨row, .ok (.switch true)⟩) hkey (hlast.trans ?_)
          rw [takeLetters_flag hnamed hvalue]
          cases before.takeNow g.operand row (.ok (.switch true)) with
          | error e => rfl
          | ok next => rfl
      | behind value =>
          obtain ⟨before, hbefore, hlast⟩ := hstep [] (by simp)
          rw [Piece.words, hletters]
          exact reaches_await hbefore hkey hvalue.2
            (hlast.trans (takeLetters_last hnamed hvalue.1 _))
      | attached value =>
          obtain ⟨hne, hknown⟩ := hattached value rfl
          obtain ⟨before, hbefore, hlast⟩ := hstep value hknown
          rw [Piece.words, hletters, Placement.spell, List.append_nil, List.cons_append,
            List.append_assoc, List.singleton_append]
          exact reaches_takeNow hbefore (r := ⟨row, row.kind.read value⟩) hkey
            (hlast.trans (takeLetters_value hnamed hvalue _ hne))

theorem reaches_single (h : scan.Holds g given) {word : Text}
    (hsingle : g.operand.takesDashes = false) (hword : g.isWord word = true) :
    scan.Reaches g (Piece.operand word).words
      (Reading.takeAll given ((Piece.operand word).readings g)) := by
  have hopen := h.optionsEnded_eq
  rw [Piece.words, Piece.readings, Reading.takeAll_singleton]
  -- whether there was an operand before shows in the settings that the state holds
  cases hseen : given.any (·.key == g.operand.key) with
  | true =>
      have htake : Reading.take given ⟨g.operand.row, g.operand.kind.read word⟩ = none := by
        rw [Reading.take, if_pos]
        rw [Operand.row, hseen]
        rfl
      rw [htake]
      refine .of_step_ne_ok fun next hnext => ?_
      rw [step_of_isWord hopen hword] at hnext
      rcases takeWord_cases hnext with ⟨row, hwaiting, -⟩ | ⟨-, hfresh, -⟩ | ⟨hcommand, -⟩ |
        ⟨hcommand, -⟩
      · exact h.not_awaiting row hwaiting
      · rw [h.operandSeen_eq, hseen] at hfresh
        cases hfresh
      · rw [hsingle] at hcommand
        cases hcommand
      · rw [hsingle] at hcommand
        cases hcommand
  | false =>
      refine .of_step ?_ (reaches_operand hsingle hseen word)
      rw [step_of_isWord hopen hword]
      exact takeWord_single hsingle h.not_awaiting (h.operandSeen_eq.trans hseen) h.settle_eq word

/-- **A piece is scanned as what it gives is taken.** -/
theorem reaches_piece (hg : g.WellFormed) (h : scan.Holds g given) {piece : Piece}
    (hfits : piece.Fits g) :
    scan.Reaches g piece.words (Reading.takeAll given (piece.readings g)) := by
  cases piece with
  | long row value => exact reaches_long hg h hfits.1 hfits.2
  | letters flags row value => exact reaches_letters hg h hfits
  | operand word => exact reaches_single h hfits.1 hfits.2

/-- **Pieces are scanned one after the other.** -/
theorem reaches_pieces (hg : g.WellFormed) (h : scan.Holds g given) {pieces : List Piece}
    (hfits : ∀ piece ∈ pieces, piece.Fits g) :
    scan.Reaches g (pieces.flatMap Piece.words)
      (Reading.takeAll given (pieces.flatMap (Piece.readings g))) := by
  induction pieces generalizing scan given with
  | nil => exact reaches_of_holds h
  | cons piece pieces ih =>
      rw [List.flatMap_cons, List.flatMap_cons, Reading.takeAll_append]
      refine (reaches_piece hg h (hfits piece List.mem_cons_self)).append ?_
      intro given' _ next hnext
      exact ih hnext fun other hother => hfits other (List.mem_cons_of_mem _ hother)

end Scan

end RadarProfile
