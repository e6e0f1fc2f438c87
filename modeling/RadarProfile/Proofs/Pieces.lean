import Mathlib.Data.List.Nodup
import RadarProfile.Proofs.Scanning

set_option autoImplicit false

/-! # Pieces of a command line

A command line is written in pieces: an option by its long name, options by their letters behind
one dash, or an operand (`Piece`). A piece has its words, which are what is scanned, and its
readings, which are what it gives: the row of the table and the setting that was read
(`Reading`). Readings are taken one after the other, and whether all of them can be taken depends
on each of them and on each two of them, not on their order (`Reading.takeAll_eq_some_iff`). -/

namespace RadarProfile

/-! ## Tables -/

/-- What a table of options has to keep to: names of several letters are not empty and hold no
equals sign, every name and every key stands for one row, no letter is a dash, and no option
gives the operand. -/
structure Grammar.WellFormed (g : Grammar) : Prop where
  long_ne_nil : ∀ row ∈ g.rows, row.long ≠ []
  equals_not_mem : ∀ row ∈ g.rows, '=' ∉ row.long
  longNamed_eq : ∀ row ∈ g.rows, g.longNamed row.long = some (.row row)
  all_short : ∀ row ∈ g.rows,
    (row.short.all fun letter => g.shortNamed letter == some (.row row)) = true
  short_ne : ∀ row ∈ g.rows, row.short ≠ some '-'
  nodup_keys : (g.rows.map OptionRow.key).Nodup
  key_ne : ∀ row ∈ g.rows, row.key ≠ g.operand.key

theorem ConfigureOptions.wellFormed : grammar.WellFormed := by
  constructor
  all_goals decide +kernel

theorem ForwardOptions.wellFormed : grammar.WellFormed := by
  constructor
  all_goals decide +kernel

theorem Grammar.WellFormed.shortNamed_of_short {g : Grammar} (hg : g.WellFormed)
    {row : OptionRow} (hrow : row ∈ g.rows) {letter : Char} (h : row.short = some letter) :
    g.shortNamed letter = some (.row row) := by
  have hall := hg.all_short row hrow
  rw [h, Option.all_some, beq_iff_eq] at hall
  exact hall

theorem Grammar.WellFormed.eq_of_key_eq {g : Grammar} (hg : g.WellFormed) {row other : OptionRow}
    (hrow : row ∈ g.rows) (hother : other ∈ g.rows) (h : row.key = other.key) : row = other :=
  List.inj_on_of_nodup_map hg.nodup_keys hrow hother h

/-! ## Values -/

namespace ValueKind

/-- The settings that a kind of value can make. -/
def Makes : ValueKind → Setting → Prop
  | text, .text _ => True
  | path, .text _ => True
  | natural _, .number _ => True
  | integer _, .number _ => True
  | switch, .switch _ => True
  | level, .level _ => True
  | mode, .mode _ => True
  | _, _ => False

theorem orUnreadable_eq_ok_iff {value : Text} {found : Option Setting} {setting : Setting} :
    orUnreadable value found = .ok setting ↔ found = some setting := by
  cases found with
  | none => simp [orUnreadable]
  | some other => simp [orUnreadable]

theorem makes_of_read {kind : ValueKind} {value : Text} {setting : Setting}
    (h : kind.read value = .ok setting) : kind.Makes setting := by
  cases kind with
  | text =>
      cases h
      exact True.intro
  | path =>
      rw [read] at h
      split at h
      · cases h
      · cases h
        exact True.intro
  | natural bound =>
      obtain ⟨number, -, rfl⟩ := Option.map_eq_some_iff.mp (orUnreadable_eq_ok_iff.mp h)
      exact True.intro
  | integer bound =>
      have hfound := orUnreadable_eq_ok_iff.mp h
      split at hfound
      · split at hfound
        · cases hfound
          exact True.intro
        · cases hfound
      · cases hfound
  | switch =>
      rw [read] at h
      split_ifs at h
      · cases h
        exact True.intro
      · cases h
        exact True.intro
  | level =>
      obtain ⟨level, -, rfl⟩ := Option.map_eq_some_iff.mp (orUnreadable_eq_ok_iff.mp h)
      exact True.intro
  | mode =>
      obtain ⟨mode, -, rfl⟩ := Option.map_eq_some_iff.mp (orUnreadable_eq_ok_iff.mp h)
      exact True.intro

end ValueKind

/-! ## Pieces -/

/-- Where the value of an option stands. A flag has none. -/
inductive Placement where
  | bare
  | behind (value : Text)
  | attached (value : Text)
deriving DecidableEq

namespace Placement

def spell (name separator : Text) : Placement → List Text
  | bare => [name]
  | behind value => [name, value]
  | attached value => [name ++ separator ++ value]

def reading (row : OptionRow) : Placement → Except UsageError Setting
  | bare => .ok (.switch true)
  | behind value => row.kind.read value
  | attached value => row.kind.read value

/-- Flags stand alone and other options with a value, which in a word of its own must not look
like an option. -/
def Fits (g : Grammar) (row : OptionRow) : Placement → Prop
  | bare => row.isFlag = true
  | behind value => row.isFlag = false ∧ g.isWord value = true
  | attached _ => row.isFlag = false

end Placement

def OptionRow.letters (rows : List OptionRow) : Text := rows.filterMap OptionRow.short

def Operand.row (operand : Operand) : OptionRow :=
  ⟨operand.key, [], none, false, none, operand.kind⟩

/-- A piece of a command line: an option by its name, options by their letters behind one dash,
of which all but the last one are flags, or an operand. -/
inductive Piece where
  | long (row : OptionRow) (value : Placement)
  | letters (flags : List OptionRow) (row : OptionRow) (value : Placement)
  | operand (word : Text)
deriving DecidableEq

/-- What a piece gives for a row: a setting, if it can be read. -/
structure Reading where
  row : OptionRow
  result : Except UsageError Setting

def Reading.flag (row : OptionRow) : Reading := ⟨row, .ok (.switch true)⟩

namespace Piece

def words : Piece → List Text
  | long row value => value.spell ('-' :: '-' :: row.long) ['=']
  | letters flags row value => value.spell ('-' :: OptionRow.letters (flags ++ [row])) []
  | operand word => [word]

/-- The piece can be written: its options are known, and its words are not taken for
something else. -/
def Fits (g : Grammar) : Piece → Prop
  | long row value => row ∈ g.rows ∧ value.Fits g row
  | letters flags row value =>
    (∀ flag ∈ flags, flag ∈ g.rows ∧ flag.isFlag = true ∧ flag.short.isSome = true) ∧
      row ∈ g.rows ∧ row.short.isSome = true ∧ value.Fits g row ∧
      ∀ rest, value = .attached rest → rest ≠ [] ∧
        (g.operand.takesDashes = true → ∀ letter ∈ rest, (g.shortNamed letter).isSome = true)
  | operand word => g.operand.takesDashes = false ∧ g.isWord word = true

def readings (g : Grammar) : Piece → List Reading
  | long row value => [⟨row, value.reading row⟩]
  | letters flags row value => flags.map Reading.flag ++ [⟨row, value.reading row⟩]
  | operand word => [⟨g.operand.row, g.operand.kind.read word⟩]

theorem words_ne_nil (piece : Piece) : piece.words ≠ [] := by
  cases piece with
  | long row value => cases value <;> exact List.cons_ne_nil _ _
  | letters flags row value => cases value <;> exact List.cons_ne_nil _ _
  | operand word => exact List.cons_ne_nil _ _

/-- **All that a piece gives**: that a flag is on, the value of another option, or an operand. -/
theorem reading_cases {g : Grammar} {piece : Piece} (h : piece.Fits g) {r : Reading}
    (hr : r ∈ piece.readings g) :
    (r.row ∈ g.rows ∧ r.row.isFlag = true ∧ r.result = .ok (.switch true)) ∨
      (r.row ∈ g.rows ∧ r.row.isFlag = false ∧ ∃ value, r.result = r.row.kind.read value) ∨
      (g.operand.takesDashes = false ∧ r.row = g.operand.row ∧
        ∃ word, r.result = r.row.kind.read word) := by
  have hoption : ∀ {row : OptionRow} {value : Placement}, row ∈ g.rows → value.Fits g row →
      (row ∈ g.rows ∧ row.isFlag = true ∧ value.reading row = .ok (.switch true)) ∨
        (row ∈ g.rows ∧ row.isFlag = false ∧
          ∃ text, value.reading row = row.kind.read text) := by
    intro row value hrow hfits
    cases value with
    | bare => exact Or.inl ⟨hrow, hfits, rfl⟩
    | behind text => exact Or.inr ⟨hrow, hfits.1, text, rfl⟩
    | attached text => exact Or.inr ⟨hrow, hfits, text, rfl⟩
  cases piece with
  | long row value =>
      obtain rfl := List.mem_singleton.mp hr
      exact (hoption h.1 h.2).imp_right Or.inl
  | letters flags row value =>
      rcases List.mem_append.mp hr with hr | hr
      · obtain ⟨flag, hflag, rfl⟩ := List.mem_map.mp hr
        exact Or.inl ⟨(h.1 flag hflag).1, (h.1 flag hflag).2.1, rfl⟩
      · obtain rfl := List.mem_singleton.mp hr
        exact (hoption h.2.1 h.2.2.2.1).imp_right Or.inl
  | operand word =>
      obtain rfl := List.mem_singleton.mp hr
      exact Or.inr (Or.inr ⟨h.1, rfl, word, rfl⟩)

section
variable {g : Grammar} {piece : Piece} (h : piece.Fits g) {r : Reading} (hr : r ∈ piece.readings g)
include h hr

/-- What a piece gives is for an option that is known, or for a single operand. -/
theorem row_of_mem_readings :
    r.row ∈ g.rows ∨ (g.operand.takesDashes = false ∧ r.row = g.operand.row) := by
  rcases reading_cases h hr with ⟨hrow, -⟩ | ⟨hrow, -⟩ | ⟨hsingle, hrow, -⟩
  · exact Or.inl hrow
  · exact Or.inl hrow
  · exact Or.inr ⟨hsingle, hrow⟩

theorem makes_of_mem_readings {setting : Setting} (hsetting : r.result = .ok setting) :
    r.row.kind.Makes setting := by
  rcases reading_cases h hr with ⟨-, hflag, hresult⟩ | ⟨-, -, value, hresult⟩ |
    ⟨-, -, word, hresult⟩
  · obtain rfl : .switch true = setting := Except.ok.inj (hresult.symm.trans hsetting)
    rw [show r.row.kind = .switch from beq_iff_eq.mp hflag]
    exact True.intro
  · exact ValueKind.makes_of_read (hresult.symm.trans hsetting)
  · exact ValueKind.makes_of_read (hresult.symm.trans hsetting)

/-- A flag gives that it is on, however it is written. -/
theorem result_of_isFlag (hg : g.WellFormed) (hrow : r.row ∈ g.rows)
    (hflag : r.row.isFlag = true) : r.result = .ok (.switch true) := by
  rcases reading_cases h hr with ⟨-, -, hresult⟩ | ⟨-, hoption, -⟩ | ⟨-, hoperand, -⟩
  · exact hresult
  · rw [hflag] at hoption
    cases hoption
  · rw [hoperand] at hrow
    exact absurd rfl (hg.key_ne _ hrow)

end

end Piece

/-! ## Taking what pieces give -/

namespace Reading

def setting? (r : Reading) : Option Setting := r.result.toOption

def given? (r : Reading) : Option Given := r.setting?.map (Given.mk r.row.key)

theorem setting?_eq_some_iff {r : Reading} {setting : Setting} :
    r.setting? = some setting ↔ r.result = .ok setting := by
  unfold setting?
  cases r.result with
  | error e => simp [Except.toOption]
  | ok found => simp [Except.toOption]

theorem given?_eq_some_iff {r : Reading} {given : Given} :
    r.given? = some given ↔ r.result = .ok given.setting ∧ given.key = r.row.key := by
  unfold given?
  rw [Option.map_eq_some_iff]
  constructor
  · rintro ⟨setting, hsetting, rfl⟩
    exact ⟨setting?_eq_some_iff.mp hsetting, rfl⟩
  · rintro ⟨hresult, hkey⟩
    exact ⟨given.setting, setting?_eq_some_iff.mpr hresult, by rw [← hkey]⟩

theorem key_of_given? {r : Reading} {given : Given} (h : r.given? = some given) :
    given.key = r.row.key :=
  (given?_eq_some_iff.mp h).2

/-- Takes one more setting. An option that occurs once is refused when it occurs again. -/
def take (given : List Given) (r : Reading) : Option (List Given) :=
  if !r.row.repeats && given.any (·.key == r.row.key) then none
  else r.given?.map fun new => given ++ [new]

def takeAll (given : List Given) (readings : List Reading) : Option (List Given) :=
  readings.foldlM take given

theorem takeAll_append (given : List Given) (front back : List Reading) :
    takeAll given (front ++ back) = (takeAll given front).bind (takeAll · back) :=
  List.foldlM_append

theorem takeAll_cons (given : List Given) (r : Reading) (rest : List Reading) :
    takeAll given (r :: rest) = (r.take given).bind (takeAll · rest) := by
  rw [takeAll, List.foldlM_cons]
  rfl

theorem takeAll_singleton (given : List Given) (r : Reading) :
    takeAll given [r] = r.take given := by
  rw [takeAll_cons]
  cases r.take given with
  | none => rfl
  | some next => rfl

theorem take_eq_some_iff {given given' : List Given} {r : Reading} :
    r.take given = some given' ↔ (r.row.repeats = false → ∀ x ∈ given, x.key ≠ r.row.key) ∧
      ∃ new, r.given? = some new ∧ given' = given ++ [new] := by
  unfold take
  by_cases h : (!r.row.repeats && given.any (·.key == r.row.key)) = true
  · rw [if_pos h]
    refine iff_of_false (by simp) ?_
    rintro ⟨hfresh, -⟩
    simp only [Bool.and_eq_true, Bool.not_eq_true', List.any_eq_true, beq_iff_eq] at h
    obtain ⟨hrepeats, x, hx, hkey⟩ := h
    exact hfresh hrepeats x hx hkey
  · rw [if_neg h, Option.map_eq_some_iff]
    have hfresh : r.row.repeats = false → ∀ x ∈ given, x.key ≠ r.row.key := by
      intro hrepeats x hx hkey
      apply h
      simp only [hrepeats, Bool.not_false, Bool.true_and, List.any_eq_true, beq_iff_eq]
      exact ⟨x, hx, hkey⟩
    constructor
    · rintro ⟨new, hnew, rfl⟩
      exact ⟨hfresh, new, hnew, rfl⟩
    · rintro ⟨-, new, hnew, rfl⟩
      exact ⟨new, hnew, rfl⟩

/-- **Settings are taken** if each can be read, and if what occurs once occurs once. -/
theorem takeAll_eq_some_iff {given given' : List Given} {readings : List Reading} :
    takeAll given readings = some given' ↔
      (∃ new, readings.map given? = new.map some ∧ given' = given ++ new) ∧
      (∀ r ∈ readings, r.row.repeats = false → ∀ x ∈ given, x.key ≠ r.row.key) ∧
      readings.Pairwise fun r later => later.row.repeats = false → r.row.key ≠ later.row.key := by
  induction readings generalizing given with
  | nil =>
      constructor
      · rintro ⟨⟩
        exact ⟨⟨[], rfl, (List.append_nil _).symm⟩, by simp, List.Pairwise.nil⟩
      · rintro ⟨⟨new, hnew, rfl⟩, -, -⟩
        rw [List.map_nil, eq_comm, List.map_eq_nil_iff] at hnew
        rw [hnew, List.append_nil]
        rfl
  | cons r rest ih =>
      rw [takeAll_cons, Option.bind_eq_some_iff, List.pairwise_cons]
      constructor
      · -- the first setting that is taken is among those that the others have to differ from
        rintro ⟨middle, htake, hrest⟩
        obtain ⟨hfresh, first, hfirst, rfl⟩ := take_eq_some_iff.mp htake
        obtain ⟨⟨new, hnew, rfl⟩, hothers, hpairwise⟩ := ih.mp hrest
        have hkey : first.key = r.row.key := key_of_given? hfirst
        refine ⟨⟨first :: new, ?_, by simp⟩, ?_, ?_, hpairwise⟩
        · rw [List.map_cons, List.map_cons, hfirst, hnew]
        · simp only [List.mem_cons, forall_eq_or_imp]
          exact ⟨hfresh, fun later hlater hrepeats x hx =>
            hothers later hlater hrepeats x (List.mem_append_left _ hx)⟩
        · intro later hlater hrepeats
          rw [← hkey]
          exact hothers later hlater hrepeats first (by simp)
      · rintro ⟨⟨new, hnew, rfl⟩, hothers, hfirst, hpairwise⟩
        cases new with
        | nil => cases hnew
        | cons first new =>
            rw [List.map_cons, List.map_cons, List.cons.injEq] at hnew
            have hkey : first.key = r.row.key := key_of_given? hnew.1
            refine ⟨given ++ [first], take_eq_some_iff.mpr
              ⟨hothers r List.mem_cons_self, first, hnew.1, rfl⟩, ih.mpr
              ⟨⟨new, hnew.2, by simp⟩, fun later hlater hrepeats x hx => ?_, hpairwise⟩⟩
            rcases List.mem_append.mp hx with hx | hx
            · exact hothers later (List.mem_cons_of_mem _ hlater) hrepeats x hx
            · rw [List.mem_singleton.mp hx, hkey]
              exact hfirst later hlater hrepeats

theorem exists_reading_of_takeAll {given : List Given} {readings : List Reading}
    (h : takeAll [] readings = some given) {x : Given} (hx : x ∈ given) :
    ∃ r ∈ readings, r.given? = some x := by
  obtain ⟨⟨new, hnew, rfl⟩, -⟩ := takeAll_eq_some_iff.mp h
  have hmem : some x ∈ readings.map given? := by
    rw [hnew]
    exact List.mem_map_of_mem hx
  exact List.mem_map.mp hmem

/-- A setting of a key that does not occur can stand in front. -/
theorem takeAll_singleton_of_fresh {taken : List Given} {readings : List Reading}
    (h : takeAll [] readings = some taken) {first : Given}
    (hfirst : ∀ x ∈ taken, x.key ≠ first.key) :
    takeAll [first] readings = some (first :: taken) := by
  obtain ⟨⟨new, hnew, rfl⟩, -, hpairwise⟩ := takeAll_eq_some_iff.mp h
  refine takeAll_eq_some_iff.mpr ⟨⟨taken, hnew, rfl⟩, fun r hr _ x hx hkey => ?_, hpairwise⟩
  have hmem : r.given? ∈ taken.map some := hnew ▸ List.mem_map_of_mem hr
  obtain ⟨y, hy, hgiven⟩ := List.mem_map.mp hmem
  rw [List.mem_singleton] at hx
  rw [hx, ← key_of_given? hgiven.symm] at hkey
  exact hfirst y hy hkey.symm

end Reading

end RadarProfile
