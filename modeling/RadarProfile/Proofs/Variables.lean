import Mathlib.Data.List.Forall2
import RadarProfile.Proofs.Reaching

set_option autoImplicit false

/-! # Settings from variables

After the words, the rows of the table are gone through, and a row whose key is lacking takes what
its variable holds. As every key stands for one row, what a row takes depends on the words and on
its own variable alone (`Grammar.Supplies`), not on the rows before it
(`Grammar.fromVariables_eq_ok_iff`). -/

namespace RadarProfile

/-! ## Settings of a key -/

namespace Settings

theorem all_append (front back : List Given) (key : Key) :
    all (front ++ back) key = all front key ++ all back key := by
  simp only [all, List.filter_append, List.map_append]

theorem all_eq_nil_iff {given : List Given} {key : Key} :
    all given key = [] ↔ ∀ x ∈ given, x.key ≠ key := by
  simp [all, List.filter_eq_nil_iff]

theorem all_cons_of_ne {first : Given} {given : List Given} {key : Key} (h : first.key ≠ key) :
    all (first :: given) key = all given key := by
  rw [all, List.filter_cons_of_neg, all]
  rw [beq_iff_eq]
  exact h

end Settings

theorem Scan.lacks_iff {scan : Scan} {key : Key} :
    scan.lacks key = true ↔ Settings.all scan.given key = [] := by
  rw [Settings.all_eq_nil_iff]
  simp [lacks]

theorem Scan.lacks_congr {scan scan' : Scan} {key : Key}
    (h : Settings.all scan.given key = Settings.all scan'.given key) :
    scan.lacks key = scan'.lacks key := by
  rw [Bool.eq_iff_iff, lacks_iff, lacks_iff, h]

namespace Grammar

variable {environment : Environment} {scan complete : Scan}

/-! ## Rows -/

theorem WellFormed.nodup_variableRows {g : Grammar} (hg : g.WellFormed) :
    (g.variableRows.map (·.1)).Nodup := by
  have hrows : (g.rows.map fun row => (row.key, row.variableName, row.kind)).map (·.1) =
      g.rows.map OptionRow.key := by
    rw [List.map_map]
    rfl
  unfold variableRows
  cases hoperand : g.operand with
  | single key variableName kind =>
      rw [List.map_append, hrows, List.map_singleton, List.singleton_append, List.nodup_cons]
      refine ⟨fun hmem => ?_, hg.nodup_keys⟩
      obtain ⟨row, hrow, hkey⟩ := List.mem_map.mp hmem
      exact hg.key_ne row hrow (by rw [hkey, hoperand]; rfl)
  | command key =>
      rw [List.nil_append, hrows]
      exact hg.nodup_keys

theorem ne_operand_key_of_mem_variableRows {g : Grammar} (hg : g.WellFormed)
    (hcommand : g.operand.takesDashes = true) {row : Key × Option Text × ValueKind}
    (hrow : row ∈ g.variableRows) : row.1 ≠ g.operand.key := by
  unfold variableRows at hrow
  cases hoperand : g.operand with
  | single key variableName kind =>
      rw [hoperand] at hcommand
      cases hcommand
  | command key =>
      rw [hoperand, List.nil_append] at hrow
      obtain ⟨option, hoption, rfl⟩ := List.mem_map.mp hrow
      rw [← hoperand]
      exact hg.key_ne option hoption

/-- What a row takes after the words: nothing if they gave its key, and else what its variable
holds, which must be readable. -/
def Supplies (environment : Environment) (scan : Scan) (row : Key × Option Text × ValueKind)
    (found : List Given) : Prop :=
  match scan.lacks row.1, row.2.1.bind environment with
  | true, some value => ∃ setting, row.2.2.read value = .ok setting ∧ found = [⟨row.1, setting⟩]
  | _, _ => found = []

theorem Supplies.key_eq {row : Key × Option Text × ValueKind} {found : List Given}
    (h : Supplies environment scan row found) {x : Given} (hx : x ∈ found) : x.key = row.1 := by
  unfold Supplies at h
  split at h
  · obtain ⟨setting, -, rfl⟩ := h
    rw [List.mem_singleton.mp hx]
  · rw [h] at hx
    cases hx

theorem supplies_of_no_variable {row : Key × Option Text × ValueKind} (h : row.2.1 = none)
    {found : List Given} : Supplies environment scan row found ↔ found = [] := by
  unfold Supplies
  rw [h]
  cases scan.lacks row.1 with
  | true => exact Iff.rfl
  | false => exact Iff.rfl

/-- The variable of a key that was given is not looked at. -/
theorem supplies_congr {environment' : Environment} {scan' : Scan}
    {row : Key × Option Text × ValueKind} {found : List Given}
    (hlacks : scan.lacks row.1 = scan'.lacks row.1)
    (hvariable : scan.lacks row.1 = true → row.2.1.bind environment = row.2.1.bind environment') :
    Supplies environment scan row found ↔ Supplies environment' scan' row found := by
  unfold Supplies
  rw [← hlacks]
  cases h : scan.lacks row.1 with
  | true => rw [hvariable h]
  | false => exact Iff.rfl

theorem forall₂_supplies_congr {environment' : Environment} {scan' : Scan}
    {rows : List (Key × Option Text × ValueKind)} {extra : List (List Given)}
    (h : ∀ row ∈ rows, ∀ found,
      Supplies environment scan row found ↔ Supplies environment' scan' row found) :
    List.Forall₂ (Supplies environment scan) rows extra ↔
      List.Forall₂ (Supplies environment' scan') rows extra := by
  constructor
  · intro hextra
    refine ((List.forall₂_and_left _ _).mpr ⟨h, hextra⟩).imp ?_
    rintro row found ⟨hrow, hfound⟩
    exact (hrow found).mp hfound
  · intro hextra
    refine ((List.forall₂_and_left _ _).mpr ⟨h, hextra⟩).imp ?_
    rintro row found ⟨hrow, hfound⟩
    exact (hrow found).mpr hfound

theorem fromVariables_cons_eq_ok_iff {row : Key × Option Text × ValueKind}
    {rest : List (Key × Option Text × ValueKind)} :
    fromVariables environment (row :: rest) scan = .ok complete ↔
      ∃ found, Supplies environment scan row found ∧
        fromVariables environment rest { scan with given := scan.given ++ found } =
          .ok complete := by
  obtain ⟨key, variableName, kind⟩ := row
  rw [fromVariables]
  unfold Supplies
  cases variableName.bind environment with
  | none => simp
  | some value =>
      cases scan.lacks key with
      | false => simp
      | true =>
          cases hread : kind.read value with
          | error e => simp [hread]
          | ok setting => simp [hread]

/-- **Each row takes what its own variable holds**, if its key is lacking after the words. -/
theorem fromVariables_eq_ok_iff {rows : List (Key × Option Text × ValueKind)}
    (hrows : (rows.map (·.1)).Nodup) :
    fromVariables environment rows scan = .ok complete ↔
      ∃ extra, List.Forall₂ (Supplies environment scan) rows extra ∧
        complete = { scan with given := scan.given ++ extra.flatten } := by
  -- along the rows, for any settings that are there already
  induction rows generalizing scan with
  | nil =>
      simp only [fromVariables, Except.ok.injEq, List.forall₂_nil_left_iff, exists_eq_left,
        List.flatten_nil, List.append_nil]
      exact eq_comm
  | cons row rest ih =>
      rw [List.map_cons, List.nodup_cons] at hrows
      -- the rows that follow have other keys, so what this one takes is nothing to them
      have hothers : ∀ {found}, Supplies environment scan row found → ∀ other ∈ rest, ∀ found',
          Supplies environment { scan with given := scan.given ++ found } other found' ↔
            Supplies environment scan other found' := by
        intro found hfound other hother found'
        refine supplies_congr (Scan.lacks_congr ?_) fun _ => rfl
        have hnil : Settings.all found other.1 = [] := by
          refine Settings.all_eq_nil_iff.mpr fun x hx hkey => hrows.1 ?_
          rw [← hfound.key_eq hx, hkey]
          exact List.mem_map_of_mem hother
        rw [Settings.all_append, hnil, List.append_nil]
      rw [fromVariables_cons_eq_ok_iff]
      constructor
      · rintro ⟨found, hfound, hrest⟩
        obtain ⟨extra, hextra, rfl⟩ := (ih hrows.2).mp hrest
        exact ⟨found :: extra, .cons hfound ((forall₂_supplies_congr (hothers hfound)).mp hextra),
          by simp⟩
      · rintro ⟨extra, hextra, rfl⟩
        cases hextra with
        | cons hfound hextra =>
            rename_i found extra
            exact ⟨found, hfound, (ih hrows.2).mpr
              ⟨extra, (forall₂_supplies_congr (hothers hfound)).mpr hextra, by simp⟩⟩

/-! ## What the rows took -/

section
variable {rows : List (Key × Option Text × ValueKind)} {extra : List (List Given)}
  (h : List.Forall₂ (Supplies environment scan) rows extra)
include h

/-- Nothing is taken for a key that is in no row. -/
theorem all_eq_nil_of_supplies {key : Key} (hkey : key ∉ rows.map (·.1)) :
    Settings.all extra.flatten key = [] := by
  induction h with
  | nil => rfl
  | cons hfound _ ih =>
      rw [List.map_cons, List.mem_cons, not_or] at hkey
      rw [List.flatten_cons, Settings.all_append, ih hkey.2, List.append_nil,
        Settings.all_eq_nil_iff]
      intro x hx hxkey
      exact hkey.1 (hxkey.symm.trans (hfound.key_eq hx))

theorem all_of_supplies (hrows : (rows.map (·.1)).Nodup) {row : Key × Option Text × ValueKind}
    (hrow : row ∈ rows) : ∃ found, Supplies environment scan row found ∧
      Settings.all extra.flatten row.1 = found.map (·.setting) := by
  -- along the rows: this one is the first, or the first has another key
  induction h with
  | nil => cases hrow
  | @cons first found others extra hfirst hothers ih =>
      rw [List.map_cons, List.nodup_cons] at hrows
      rw [List.flatten_cons, Settings.all_append]
      rcases List.mem_cons.mp hrow with rfl | hrow
      · refine ⟨found, hfirst, ?_⟩
        have hall : found.filter (fun x => x.key == row.1) = found := by
          rw [List.filter_eq_self]
          intro x hx
          rw [hfirst.key_eq hx, beq_self_eq_true]
        rw [all_eq_nil_of_supplies hothers hrows.1, List.append_nil, Settings.all, hall]
      · obtain ⟨taken, htaken, hall⟩ := ih hrows.2 hrow
        refine ⟨taken, htaken, ?_⟩
        have hnil : Settings.all found row.1 = [] := by
          refine Settings.all_eq_nil_iff.mpr fun x hx hkey => hrows.1 ?_
          rw [← hfirst.key_eq hx, hkey]
          exact List.mem_map_of_mem hrow
        rw [hnil, List.nil_append, hall]

end

/-- **What a command line comes to**: the settings of its words, and those of the variables whose
keys are lacking; the operand is among them. -/
theorem parse_eq_ok_iff {g : Grammar} (hg : g.WellFormed) {words : List Text}
    {given : List Given} :
    g.parse environment words = .ok given ↔
      ∃ scanned extra, Scan.scanWords g words .start = .ok scanned ∧
        List.Forall₂ (Supplies environment scanned) g.variableRows extra ∧
        given = scanned.given ++ extra.flatten ∧ Settings.all given g.operand.key ≠ [] := by
  rw [parse]
  cases Scan.scanWords g words .start with
  | error e => simp
  | ok scanned =>
      have hvariables : ∀ complete,
          fromVariables environment g.variableRows scanned = .ok complete ↔
            ∃ extra, List.Forall₂ (Supplies environment scanned) g.variableRows extra ∧
              complete = { scanned with given := scanned.given ++ extra.flatten } :=
        fun complete => fromVariables_eq_ok_iff hg.nodup_variableRows
      dsimp only
      constructor
      · intro hparse
        cases hcomplete : fromVariables environment g.variableRows scanned with
        | error e => rw [hcomplete] at hparse; cases hparse
        | ok complete =>
            obtain ⟨extra, hextra, rfl⟩ := (hvariables complete).mp hcomplete
            rw [hcomplete] at hparse
            dsimp only at hparse
            split at hparse
            · cases hparse
            · rename_i hoperand
              cases hparse
              exact ⟨scanned, extra, rfl, hextra, rfl, fun hnil =>
                hoperand (Scan.lacks_iff.mpr hnil)⟩
      · rintro ⟨scanned', extra, hscanned, hextra, rfl, hoperand⟩
        cases hscanned
        rw [(hvariables _).mpr ⟨extra, hextra, rfl⟩]
        dsimp only
        rw [if_neg fun hlacks => hoperand (Scan.lacks_iff.mp hlacks)]

/-- What pieces give together with the variables. -/
def Gives (g : Grammar) (environment : Environment) (pieces : List Piece) (given : List Given) :
    Prop :=
  ∃ taken extra, Reading.takeAll [] (pieces.flatMap (Piece.readings g)) = some taken ∧
    List.Forall₂ (Supplies environment (Scan.atRest g taken)) g.variableRows extra ∧
    given = taken ++ extra.flatten

end Grammar

end RadarProfile
