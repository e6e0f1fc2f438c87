import Mathlib.Data.List.Perm.Basic
import RadarProfile.Proofs.Cutting
import RadarProfile.Proofs.Variables

set_option autoImplicit false

/-! # Pieces in another order

What pieces give for a key does not change when they are put in another order, if the pieces of
each option that repeats stay in theirs, and it does not matter whether a value is attached to its
option or stands behind it (`Piece.settings`). Together with the variables, settings of the same
keys are given (`Grammar.Gives`), so a program that looks settings up by their keys cannot tell
the difference. -/

namespace RadarProfile

/-! ## Readings in another order -/

namespace Reading

variable {readings arranged : List Reading} {taken : List Given}

theorem all_of_takeAll (h : takeAll [] readings = some taken) (key : Key) :
    Settings.all taken key =
      (readings.filter fun r => r.row.key == key).filterMap setting? := by
  obtain ⟨⟨new, hnew, hgiven⟩, -⟩ := takeAll_eq_some_iff.mp h
  obtain rfl : taken = new := hgiven
  clear h
  -- along the readings, each of which stands beside what was taken for it
  induction readings generalizing taken with
  | nil =>
      obtain rfl : taken = [] := by simpa using hnew.symm
      rfl
  | cons r rest ih =>
      cases taken with
      | nil => cases hnew
      | cons x taken =>
          obtain ⟨hx, hrest⟩ := List.cons.inj hnew
          have hkey : x.key = r.row.key := key_of_given? hx
          obtain ⟨setting, hsetting, rfl⟩ := Option.map_eq_some_iff.mp hx
          by_cases hrow : r.row.key = key
          · have hpos : (r.row.key == key) = true := beq_iff_eq.mpr hrow
            rw [List.filter_cons, if_pos hpos, List.filterMap_cons_some hsetting, ← ih hrest,
              Settings.all, List.filter_cons, if_pos hpos]
            rfl
          · have hneg : ¬ (r.row.key == key) = true := fun h => hrow (beq_iff_eq.mp h)
            rw [List.filter_cons, if_neg hneg, ← ih hrest]
            exact Settings.all_cons_of_ne hrow

/-- Two readings of one key are for one row. -/
def KeysTell (readings : List Reading) : Prop :=
  ∀ r ∈ readings, ∀ other ∈ readings, r.row.key = other.row.key → r.row = other.row

/-- Whether readings can be taken does not depend on their order. -/
theorem exists_takeAll_of_perm (hkeys : KeysTell readings) (hperm : arranged.Perm readings)
    (h : takeAll [] readings = some taken) : ∃ taken', takeAll [] arranged = some taken' := by
  obtain ⟨⟨new, hnew, -⟩, -, hpairwise⟩ := takeAll_eq_some_iff.mp h
  -- of two readings of one key, both are for an option that repeats
  have hboth : readings.Pairwise fun r later => r.row.key = later.row.key →
      r.row.repeats = true ∧ later.row.repeats = true := by
    refine hpairwise.imp_of_mem fun {r later} hr hlater honce hkey => ?_
    have hrepeats : later.row.repeats = true := by
      cases hlast : later.row.repeats with
      | true => rfl
      | false => exact absurd hkey (honce hlast)
    exact ⟨hkeys r hr later hlater hkey ▸ hrepeats, hrepeats⟩
  have harranged := hboth.perm hperm.symm fun {r later} h hkey => (h hkey.symm).symm
  have hreadable : ∀ r ∈ arranged, (given? r).isSome = true := by
    intro r hr
    have hmem : given? r ∈ new.map some := hnew ▸ List.mem_map_of_mem (hperm.mem_iff.mp hr)
    obtain ⟨x, -, hx⟩ := List.mem_map.mp hmem
    rw [← hx]
    rfl
  refine ⟨arranged.filterMap given?, takeAll_eq_some_iff.mpr ⟨⟨_, ?_, rfl⟩, by simp, ?_⟩⟩
  · clear hperm harranged
    induction arranged with
    | nil => rfl
    | cons r rest ih =>
        obtain ⟨x, hx⟩ := Option.isSome_iff_exists.mp (hreadable r List.mem_cons_self)
        rw [List.map_cons, List.filterMap_cons_some hx, List.map_cons, hx,
          ih fun other hother => hreadable other (List.mem_cons_of_mem _ hother)]
  · refine harranged.imp fun {r later} hboth hlast hkey => ?_
    rw [(hboth hkey).2] at hlast
    cases hlast

/-- An option that occurs once is read once. -/
theorem length_filter_key_le_one (h : takeAll [] readings = some taken) {key : Key}
    (honce : ∀ r ∈ readings, r.row.key = key → r.row.repeats = false) :
    (readings.filter fun r => r.row.key == key).length ≤ 1 := by
  obtain ⟨-, -, hpairwise⟩ := takeAll_eq_some_iff.mp h
  have hfound := hpairwise.filter fun r => r.row.key == key
  have hmem : ∀ r ∈ readings.filter fun r => r.row.key == key,
      r.row.key = key ∧ r.row.repeats = false := by
    intro r hr
    obtain ⟨hr, hkey⟩ := List.mem_filter.mp hr
    exact ⟨beq_iff_eq.mp hkey, honce r hr (beq_iff_eq.mp hkey)⟩
  -- two of them would have the same key, and the later one occurs once
  generalize readings.filter (fun r => r.row.key == key) = found at hfound hmem ⊢
  match found with
  | [] => exact Nat.zero_le 1
  | [r] => exact Nat.le_refl 1
  | r :: later :: rest =>
      obtain ⟨hfirst, -⟩ := List.pairwise_cons.mp hfound
      obtain ⟨hkey, -⟩ := hmem r List.mem_cons_self
      obtain ⟨hkey', hlast⟩ := hmem later (by simp)
      exact absurd (hkey.trans hkey'.symm) (hfirst later List.mem_cons_self hlast)

theorem filter_key_of_perm (hperm : arranged.Perm readings)
    (h : takeAll [] readings = some taken) {key : Key}
    (honce : ∀ r ∈ readings, r.row.key = key → r.row.repeats = false) :
    arranged.filter (fun r => r.row.key == key) = readings.filter (fun r => r.row.key == key) := by
  have hfilter := hperm.filter fun r => r.row.key == key
  have hlength := length_filter_key_le_one h honce
  generalize readings.filter (fun r => r.row.key == key) = found at hfilter hlength ⊢
  match found with
  | [] => exact hfilter.eq_nil
  | [r] => exact hfilter.eq_singleton
  | r :: later :: rest => simp at hlength

end Reading

/-! ## Pieces in another order -/

namespace Piece

variable {g : Grammar} {pieces arranged respelled : List Piece} {key : Key}

def gives (g : Grammar) (key : Key) (piece : Piece) : Bool :=
  (piece.readings g).any fun r => r.row.key == key

def settings (g : Grammar) (pieces : List Piece) (key : Key) : List Setting :=
  ((pieces.flatMap (readings g)).filter fun r => r.row.key == key).filterMap Reading.setting?

theorem filter_readings_filter_gives (pieces : List Piece) (key : Key) :
    ((pieces.filter (gives g key)).flatMap (readings g)).filter (fun r => r.row.key == key) =
      (pieces.flatMap (readings g)).filter fun r => r.row.key == key := by
  induction pieces with
  | nil => rfl
  | cons piece rest ih =>
      rw [List.flatMap_cons, List.filter_append, ← ih]
      cases hgives : gives g key piece with
      | true =>
          rw [List.filter_cons_of_pos hgives, List.flatMap_cons, List.filter_append]
      | false =>
          have hnil : (piece.readings g).filter (fun r => r.row.key == key) = [] := by
            rw [List.filter_eq_nil_iff]
            rwa [gives, List.any_eq_false] at hgives
          rw [List.filter_cons_of_neg (by simp [hgives]), hnil, List.nil_append]

/-- If all that pieces give is taken, the value of each option is one of the settings. -/
theorem exists_mem_settings_of_long {taken : List Given}
    (h : Reading.takeAll [] (pieces.flatMap (readings g)) = some taken) {row : OptionRow}
    {value : Placement} (hpiece : .long row value ∈ pieces) :
    ∃ setting ∈ settings g pieces row.key, value.reading row = .ok setting := by
  obtain ⟨⟨new, hnew, -⟩, -⟩ := Reading.takeAll_eq_some_iff.mp h
  have hreading : ⟨row, value.reading row⟩ ∈ pieces.flatMap (readings g) :=
    List.mem_flatMap.mpr ⟨_, hpiece, List.mem_singleton_self _⟩
  -- all that was given could be read
  have hgiven : Reading.given? ⟨row, value.reading row⟩ ∈ new.map some :=
    hnew ▸ List.mem_map_of_mem hreading
  obtain ⟨x, -, hx⟩ := List.mem_map.mp hgiven
  obtain ⟨hread, -⟩ := Reading.given?_eq_some_iff.mp hx.symm
  refine ⟨x.setting, List.mem_filterMap.mpr ⟨_, List.mem_filter.mpr ⟨hreading, ?_⟩, ?_⟩, hread⟩
  · exact beq_self_eq_true row.key
  · exact Reading.setting?_eq_some_iff.mpr hread

theorem keysTell (hg : g.WellFormed) (hfits : ∀ piece ∈ pieces, piece.Fits g) :
    Reading.KeysTell (pieces.flatMap (readings g)) := by
  intro r hr other hother hkey
  obtain ⟨piece, hpiece, hr⟩ := List.mem_flatMap.mp hr
  obtain ⟨piece', hpiece', hother⟩ := List.mem_flatMap.mp hother
  rcases row_of_mem_readings (hfits piece hpiece) hr with hrow | ⟨-, hrow⟩
  · rcases row_of_mem_readings (hfits piece' hpiece') hother with hrow' | ⟨-, hrow'⟩
    · exact hg.eq_of_key_eq hrow hrow' hkey
    · rw [hrow'] at hkey
      exact absurd hkey (hg.key_ne _ hrow)
  · rcases row_of_mem_readings (hfits piece' hpiece') hother with hrow' | ⟨-, hrow'⟩
    · rw [hrow] at hkey
      exact absurd hkey.symm (hg.key_ne _ hrow')
    · rw [hrow, hrow']

/-- Readings of a key occur once if no option with the key repeats. -/
theorem repeats_eq_false (hfits : ∀ piece ∈ pieces, piece.Fits g)
    (honce : ∀ row ∈ g.rows, row.repeats = true → row.key ≠ key) :
    ∀ r ∈ pieces.flatMap (readings g), r.row.key = key → r.row.repeats = false := by
  intro r hr hkey
  obtain ⟨piece, hpiece, hr⟩ := List.mem_flatMap.mp hr
  rcases row_of_mem_readings (hfits piece hpiece) hr with hrow | ⟨-, hrow⟩
  · cases hlast : r.row.repeats with
    | false => rfl
    | true => exact absurd hkey (honce r.row hrow hlast)
  · rw [hrow]
    rfl

/-- **The order of pieces is nothing** to what they give for each key, as long as the pieces of
each option that repeats stay in order. -/
theorem exists_takeAll_of_perm (hg : g.WellFormed) (hfits : ∀ piece ∈ pieces, piece.Fits g)
    {taken : List Given} (h : Reading.takeAll [] (pieces.flatMap (readings g)) = some taken)
    (hperm : arranged.Perm pieces) (hrepeats : ∀ row ∈ g.rows, row.repeats = true →
      arranged.filter (gives g row.key) = pieces.filter (gives g row.key)) :
    ∃ taken', Reading.takeAll [] (arranged.flatMap (readings g)) = some taken' ∧
      ∀ key, Settings.all taken' key = Settings.all taken key := by
  have hreadings : (arranged.flatMap (readings g)).Perm (pieces.flatMap (readings g)) :=
    hperm.flatMap_right _
  obtain ⟨taken', htaken'⟩ :=
    Reading.exists_takeAll_of_perm (keysTell hg hfits) hreadings h
  refine ⟨taken', htaken', fun key => ?_⟩
  rw [Reading.all_of_takeAll htaken', Reading.all_of_takeAll h]
  -- the pieces of a key that repeats stay in order, and of any other key there is one at most
  by_cases hkey : ∃ row ∈ g.rows, row.repeats = true ∧ row.key = key
  · obtain ⟨row, hrow, hrow', rfl⟩ := hkey
    rw [← filter_readings_filter_gives, hrepeats row hrow hrow', filter_readings_filter_gives]
  · refine congrArg _ (Reading.filter_key_of_perm hreadings h (repeats_eq_false hfits ?_))
    exact fun row hrow hlast hrowkey => hkey ⟨row, hrow, hlast, hrowkey⟩

/-! ## Pieces spelled otherwise -/

/-- The same piece, or the same option with the value behind it attached to it by an equals
sign. -/
inductive Respelled : Piece → Piece → Prop where
  | same (piece : Piece) : Respelled piece piece
  | attached (row : OptionRow) (value : Text) :
      Respelled (.long row (.behind value)) (.long row (.attached value))

theorem readings_of_respelled (h : List.Forall₂ Respelled pieces respelled) :
    respelled.flatMap (readings g) = pieces.flatMap (readings g) := by
  induction h with
  | nil => rfl
  | cons hpiece _ ih =>
      rw [List.flatMap_cons, List.flatMap_cons, ih]
      cases hpiece with
      | same piece => rfl
      | attached row value => rfl

theorem fits_of_respelled (h : List.Forall₂ Respelled pieces respelled)
    (hfits : ∀ piece ∈ pieces, piece.Fits g) : ∀ piece ∈ respelled, piece.Fits g := by
  induction h with
  | nil => exact hfits
  | cons hpiece _ ih =>
      rw [List.forall_mem_cons] at hfits ⊢
      refine ⟨?_, ih hfits.2⟩
      cases hpiece with
      | same piece => exact hfits.1
      | attached row value => exact ⟨hfits.1.1, hfits.1.2.1⟩

end Piece

/-! ## Command lines of pieces alone -/

namespace Grammar

variable {g : Grammar} {environment : Environment} {pieces : List Piece} {given : List Given}

/-- **What a command line of pieces comes to**: what they give together with the variables, if
the operand is among it. -/
theorem parse_pieces_eq_ok_iff (hg : g.WellFormed) (hfits : ∀ piece ∈ pieces, piece.Fits g) :
    g.parse environment (pieces.flatMap Piece.words) = .ok given ↔
      g.Gives environment pieces given ∧ Settings.all given g.operand.key ≠ [] := by
  have hreaches := Scan.reaches_pieces hg (Scan.holds_atRest g []) hfits
  have hscan : ∀ scanned, Scan.scanWords g (pieces.flatMap Piece.words) .start = .ok scanned ↔
      ∃ taken, Reading.takeAll [] (pieces.flatMap (Piece.readings g)) = some taken ∧
        scanned = Scan.atRest g taken := by
    intro scanned
    cases htaken : Reading.takeAll [] (pieces.flatMap (Piece.readings g)) with
    | none =>
        rw [htaken] at hreaches
        have hfails := hreaches [] scanned
        rw [List.append_nil] at hfails
        exact iff_of_false hfails (by simp)
    | some taken =>
        rw [htaken] at hreaches
        obtain ⟨next, hnext, hrest⟩ := hreaches
        have hlast := hrest []
        rw [List.append_nil, Scan.scanWords, hnext.settle_eq] at hlast
        rw [show Scan.start = Scan.atRest g [] from rfl, hlast]
        simp [eq_comm]
  rw [parse_eq_ok_iff hg]
  constructor
  · rintro ⟨scanned, extra, hscanned, hextra, rfl, hoperand⟩
    obtain ⟨taken, htaken, rfl⟩ := (hscan scanned).mp hscanned
    exact ⟨⟨taken, extra, htaken, hextra, rfl⟩, hoperand⟩
  · rintro ⟨⟨taken, extra, htaken, hextra, rfl⟩, hoperand⟩
    exact ⟨_, extra, (hscan _).mpr ⟨taken, htaken, rfl⟩, hextra, rfl, hoperand⟩

/-- A command line without two dashes and without a command is cut into pieces. -/
theorem exists_pieces_of_parse {words : List Text} (hg : g.WellFormed)
    (hsingle : g.operand.takesDashes = false) (hdashes : ['-', '-'] ∉ words)
    (h : g.parse environment words = .ok given) :
    ∃ pieces : List Piece, (∀ piece ∈ pieces, piece.Fits g) ∧
      pieces.flatMap Piece.words = words := by
  obtain ⟨scanned, -, hscan, -⟩ := (parse_eq_ok_iff hg).mp h
  obtain ⟨pieces, tail, hfits, rfl, htail⟩ :=
    Scan.exists_pieces Scan.between_start hscan
  cases htail with
  | nil => exact ⟨pieces, hfits, (List.append_nil _).symm⟩
  | ended after => exact absurd (by simp) hdashes
  | command rest hcommand _ =>
      rw [hsingle] at hcommand
      cases hcommand

theorem Gives.congr {pieces' : List Piece} (h : g.Gives environment pieces given)
    (hsame : ∀ taken, Reading.takeAll [] (pieces.flatMap (Piece.readings g)) = some taken →
      ∃ taken', Reading.takeAll [] (pieces'.flatMap (Piece.readings g)) = some taken' ∧
        ∀ key, Settings.all taken' key = Settings.all taken key) :
    ∃ given', g.Gives environment pieces' given' ∧
      ∀ key, Settings.all given' key = Settings.all given key := by
  obtain ⟨taken, extra, htaken, hextra, rfl⟩ := h
  obtain ⟨taken', htaken', hall⟩ := hsame taken htaken
  refine ⟨_, ⟨taken', extra, htaken', ?_, rfl⟩, fun key => ?_⟩
  · exact (forall₂_supplies_congr fun row _ found =>
      supplies_congr (Scan.lacks_congr (hall row.1)) fun _ => rfl).mpr hextra
  · rw [Settings.all_append, Settings.all_append, hall]

/-! ## Words before variables -/

/-- What is given for a row of the table: what the words give for it, or else what its variable
holds, or else a default. -/
structure Chosen (g : Grammar) (environment : Environment) (pieces : List Piece)
    (row : Key × Option Text × ValueKind) (default values : List Setting) : Prop where
  of_words : Piece.settings g pieces row.1 ≠ [] → values = Piece.settings g pieces row.1
  of_variable : Piece.settings g pieces row.1 = [] →
    ∀ text, row.2.1.bind environment = some text →
      ∃ setting, row.2.2.read text = .ok setting ∧ values = [setting]
  of_default : Piece.settings g pieces row.1 = [] → row.2.1.bind environment = none →
    values = default

/-- **Words are preferred to variables.** -/
theorem Gives.chosen (hg : g.WellFormed) (h : g.Gives environment pieces given)
    {row : Key × Option Text × ValueKind} (hrow : row ∈ g.variableRows) :
    g.Chosen environment pieces row [] (Settings.all given row.1) := by
  obtain ⟨taken, extra, htaken, hextra, rfl⟩ := h
  obtain ⟨found, hfound, hall⟩ := all_of_supplies hextra hg.nodup_variableRows hrow
  have hsettings : Settings.all taken row.1 = Piece.settings g pieces row.1 :=
    Reading.all_of_takeAll htaken row.1
  have hlacks : (Scan.atRest g taken).lacks row.1 = true ↔ Piece.settings g pieces row.1 = [] := by
    rw [Scan.lacks_iff, ← hsettings]
    rfl
  rw [Settings.all_append, hsettings, hall]
  unfold Supplies at hfound
  refine ⟨fun hne => ?_, fun hnil text htext => ?_, fun hnil hnone => ?_⟩
  · have hgiven : (Scan.atRest g taken).lacks row.1 = false :=
      Bool.eq_false_iff.mpr fun h => hne (hlacks.mp h)
    rw [hgiven] at hfound
    rw [show found = [] from hfound, List.map_nil, List.append_nil]
  · rw [hlacks.mpr hnil, htext] at hfound
    obtain ⟨setting, hread, rfl⟩ := hfound
    exact ⟨setting, hread, by rw [hnil]; rfl⟩
  · rw [hlacks.mpr hnil, hnone] at hfound
    rw [show found = [] from hfound, hnil]
    rfl

/-- Variables of keys that the words give are not looked at. -/
theorem Gives.of_environment {environment' : Environment} (h : g.Gives environment pieces given)
    (hsame : ∀ row ∈ g.variableRows, Piece.settings g pieces row.1 = [] →
      row.2.1.bind environment = row.2.1.bind environment') :
    g.Gives environment' pieces given := by
  obtain ⟨taken, extra, htaken, hextra, rfl⟩ := h
  refine ⟨taken, extra, htaken, ?_, rfl⟩
  refine (forall₂_supplies_congr fun row hrow found => supplies_congr rfl fun hlacks => ?_).mp
    hextra
  refine hsame row hrow ?_
  have hnil := Scan.lacks_iff.mp hlacks
  exact (Reading.all_of_takeAll htaken row.1).symm.trans hnil

/-- A setting of a row is one that its kind of value makes. -/
theorem makes_of_mem_settings (hg : g.WellFormed) (hfits : ∀ piece ∈ pieces, piece.Fits g)
    {row : Key × Option Text × ValueKind} (hrow : row ∈ g.variableRows) {setting : Setting}
    (hsetting : setting ∈ Piece.settings g pieces row.1) : row.2.2.Makes setting := by
  obtain ⟨r, hr, hresult⟩ := List.mem_filterMap.mp hsetting
  obtain ⟨hr, hkey⟩ := List.mem_filter.mp hr
  obtain ⟨piece, hpiece, hr⟩ := List.mem_flatMap.mp hr
  have hmakes := Piece.makes_of_mem_readings (hfits piece hpiece) hr
    (Reading.setting?_eq_some_iff.mp hresult)
  have hmem : ∃ variableName, (r.row.key, variableName, r.row.kind) ∈ g.variableRows := by
    unfold variableRows
    rcases Piece.row_of_mem_readings (hfits piece hpiece) hr with hrow | ⟨hsingle, hrow⟩
    · exact ⟨_, List.mem_append_right _ (List.mem_map_of_mem hrow)⟩
    · rw [hrow]
      cases hoperand : g.operand with
      | single key variableName kind =>
          exact ⟨variableName, List.mem_append_left _ List.mem_cons_self⟩
      | command key =>
          rw [hoperand] at hsingle
          cases hsingle
  obtain ⟨variableName, hmem⟩ := hmem
  -- rows with the same key are the same, so the kind of value is that of the reading
  obtain rfl : (r.row.key, variableName, r.row.kind) = row :=
    List.inj_on_of_nodup_map hg.nodup_variableRows hmem hrow (beq_iff_eq.mp hkey)
  exact hmakes

end Grammar

end RadarProfile
