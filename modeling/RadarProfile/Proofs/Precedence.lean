import RadarProfile.Proofs.Arranging

set_option autoImplicit false

/-! # The options of the configuring program

The configuring program looks its settings up by their keys. So its options are what its command
line gives for them, or else what their variables hold, or else their defaults
(`ConfigureOptions.chosen`); the mode is the one that the word names
(`ConfigureOptions.name_mode_of_word`). They do not depend on the order in which they are written
nor on where their values stand (`ConfigureOptions.order_free_and_preferred`). -/

namespace RadarProfile

namespace Settings

theorem map_text_texts {given : List Given} {key : Key}
    (hmakes : ∀ setting ∈ all given key, ValueKind.text.Makes setting) :
    (texts given key).map .text = all given key := by
  unfold texts
  generalize all given key = found at hmakes ⊢
  induction found with
  | nil => rfl
  | cons setting rest ih =>
      rw [List.forall_mem_cons] at hmakes
      cases setting with
      | text value => simpa using ih hmakes.2
      | number value => exact hmakes.1.elim
      | switch value => exact hmakes.1.elim
      | level value => exact hmakes.1.elim
      | mode value => exact hmakes.1.elim

end Settings

/-! ## Modes by their names -/

/-- **The mode of a word** is the one that has the word for its name. -/
theorem SessionMode.ofText?_eq_some_iff {t : Text} {mode : SessionMode} :
    ofText? t = some mode ↔ mode.name = t := by
  constructor
  · intro h
    have hname := List.find?_some h
    rwa [beq_iff_eq] at hname
  · rintro rfl
    cases mode with
    | peer => decide +kernel
    | client => decide +kernel
    | router => decide +kernel

theorem ValueKind.name_of_read_mode {text : Text} {mode : SessionMode}
    (h : ValueKind.mode.read text = .ok (.mode mode)) : mode.name = text := by
  obtain ⟨found, hfound, hmode⟩ := Option.map_eq_some_iff.mp (orUnreadable_eq_ok_iff.mp h)
  obtain rfl : found = mode := by simpa using hmode
  exact SessionMode.ofText?_eq_some_iff.mp hfound

namespace ConfigureOptions

variable {environment : Environment} {words : List Text} {o : ConfigureOptions}
  {pieces : List Piece} {given given' : List Given}

/-! ## Options by their keys -/

/-- What the options say for a key: one setting, none for a serial port that is not used, and
any number of addresses. -/
def settings (o : ConfigureOptions) : Key → List Setting
  | .config => [.text o.config]
  | .service => [.text o.service]
  | .namespaceName => [.text o.namespaceName]
  | .successMarker => [.text o.successMarker]
  | .waitTimeout => [.number o.waitTimeout]
  | .queryTimeout => [.number o.queryTimeout]
  | .serial => o.serial.toList.map .text
  | .baud => [.number o.baud]
  | .dryRun => [.switch o.dryRun]
  | .logLevel => [.level o.logLevel]
  | .profiler => [.switch o.profiler]
  | .mode => [.mode o.session.mode]
  | .connect => o.session.connect.map .text
  | .listen => o.session.listen.map .text
  | .noMulticastScouting => [.switch o.session.noMulticastScouting]
  | .timeout | .retry | .command => []

/-- What an option is unless it is given. The path of the profile has to be given. -/
def defaults : Key → List Setting
  | .service => [.text "mmWaveCommSrv/mmWaveCLI".toList]
  | .namespaceName => [.text "mmWave_Manager".toList]
  | .successMarker => [.text "Done".toList]
  | .waitTimeout => [.number 100000]
  | .queryTimeout => [.number 30000]
  | .baud => [.number 115200]
  | .dryRun | .profiler | .noMulticastScouting => [.switch false]
  | .logLevel => [.level (.upTo .info)]
  | .mode => [.mode .peer]
  | .config | .serial | .connect | .listen | .timeout | .retry | .command => []

theorem ofGiven_congr (h : ∀ key, Settings.all given' key = Settings.all given key) :
    ofGiven given' = ofGiven given := by
  simp only [ofGiven, SessionOptions.ofGiven, Settings.text?, Settings.texts, Settings.number,
    Settings.switch, Settings.level, Settings.mode, h]

theorem settings_of_nil {key : Key} (hconfig : key ≠ .config)
    (h : Settings.all given key = []) : (ofGiven given).settings key = defaults key := by
  cases key
  case config => exact absurd rfl hconfig
  case timeout | retry | command => rfl
  all_goals
    simp only [settings, ofGiven, SessionOptions.ofGiven, Settings.text?, Settings.texts,
      Settings.number, Settings.switch, Settings.level, Settings.mode, h]
    rfl

theorem key_kind_mem {row : Key × Option Text × ValueKind} (hrow : row ∈ grammar.variableRows) :
    (row.1, row.2.2) ∈ [(Key.config, ValueKind.path), (.service, .text), (.namespaceName, .text),
      (.successMarker, .text), (.waitTimeout, .natural greatest64),
      (.queryTimeout, .natural greatest64), (.serial, .text), (.baud, .integer greatest32),
      (.dryRun, .switch), (.logLevel, .level), (.profiler, .switch), (.mode, .mode),
      (.connect, .text), (.listen, .text), (.noMulticastScouting, .switch)] :=
  List.mem_map_of_mem (f := fun row => (row.1, row.2.2)) hrow

theorem settings_of_singleton {row : Key × Option Text × ValueKind}
    (hrow : row ∈ grammar.variableRows) {setting : Setting} (hmakes : row.2.2.Makes setting)
    (h : Settings.all given row.1 = [setting]) :
    (ofGiven given).settings row.1 = [setting] := by
  have hkind := key_kind_mem hrow
  obtain ⟨key, variableName, kind⟩ := row
  simp only [List.mem_cons, Prod.mk.injEq, List.not_mem_nil, or_false] at hkind
  -- every key has a field of its own; a setting of another kind is not made
  rcases hkind with ⟨rfl, rfl⟩ | ⟨rfl, rfl⟩ | ⟨rfl, rfl⟩ | ⟨rfl, rfl⟩ | ⟨rfl, rfl⟩ | ⟨rfl, rfl⟩ |
    ⟨rfl, rfl⟩ | ⟨rfl, rfl⟩ | ⟨rfl, rfl⟩ | ⟨rfl, rfl⟩ | ⟨rfl, rfl⟩ | ⟨rfl, rfl⟩ | ⟨rfl, rfl⟩ |
    ⟨rfl, rfl⟩ | ⟨rfl, rfl⟩
  all_goals
    cases setting
    all_goals first
      | exact hmakes.elim
      | simp only [settings, ofGiven, SessionOptions.ofGiven, Settings.text?, Settings.texts,
          Settings.number, Settings.switch, Settings.level, Settings.mode, h]
        rfl

/-- The addresses to connect to, and those to listen at, may be several. -/
theorem key_of_repeats {row : OptionRow} (hrow : row ∈ grammar.rows)
    (hrepeats : row.repeats = true) : row.key = .connect ∨ row.key = .listen := by
  have hall : ∀ row ∈ grammar.rows, row.repeats = true →
      row.key = .connect ∨ row.key = .listen := by
    decide +kernel
  exact hall row hrow hrepeats

/-- Settings that pieces give are what the options say. -/
theorem settings_of_words (hfits : ∀ piece ∈ pieces, piece.Fits grammar)
    {taken : List Given}
    (htaken : Reading.takeAll [] (pieces.flatMap (Piece.readings grammar)) = some taken)
    {row : Key × Option Text × ValueKind} (hrow : row ∈ grammar.variableRows)
    (hne : Piece.settings grammar pieces row.1 ≠ [])
    (h : Settings.all given row.1 = Piece.settings grammar pieces row.1) :
    (ofGiven given).settings row.1 = Piece.settings grammar pieces row.1 := by
  have hmakes := fun setting (hmem : setting ∈ Piece.settings grammar pieces row.1) =>
    Grammar.makes_of_mem_settings wellFormed hfits hrow hmem
  by_cases hkey : row.1 = .connect ∨ row.1 = .listen
  · -- addresses are texts, and all of them are looked up
    have htext : row.2.2 = .text := by
      have hkind : ∀ row ∈ grammar.variableRows, row.1 = .connect ∨ row.1 = .listen →
          row.2.2 = .text := by
        decide +kernel
      exact hkind row hrow hkey
    rw [htext, ← h] at hmakes
    rw [← h, ← Settings.map_text_texts hmakes]
    rcases hkey with hkey | hkey
    · rw [hkey]
      rfl
    · rw [hkey]
      rfl
  · -- any other option occurs once
    have hlength : (Piece.settings grammar pieces row.1).length ≤ 1 := by
      refine (List.length_filterMap_le _ _).trans
        (Reading.length_filter_key_le_one htaken (Piece.repeats_eq_false hfits ?_))
      intro other hother hrepeats hsame
      exact hkey (hsame ▸ key_of_repeats hother hrepeats)
    match hfound : Piece.settings grammar pieces row.1 with
    | [] => exact absurd hfound hne
    | [setting] =>
        exact settings_of_singleton hrow (hmakes setting (by simp [hfound])) (h.trans hfound)
    | first :: second :: rest => simp [hfound] at hlength

/-- **Words come before variables, and variables before defaults.** -/
theorem chosen (hfits : ∀ piece ∈ pieces, piece.Fits grammar)
    (h : grammar.Gives environment pieces given) (hconfig : Settings.all given .config ≠ [])
    {row : Key × Option Text × ValueKind} (hrow : row ∈ grammar.variableRows) :
    grammar.Chosen environment pieces row (defaults row.1) ((ofGiven given).settings row.1) := by
  have hchosen := h.chosen wellFormed hrow
  obtain ⟨taken, -, htaken, -⟩ := h
  refine ⟨fun hne => ?_, fun hnil text htext => ?_, fun hnil hnone => ?_⟩
  · exact settings_of_words hfits htaken hrow hne (hchosen.of_words hne)
  · obtain ⟨setting, hread, hall⟩ := hchosen.of_variable hnil text htext
    exact ⟨setting, hread, settings_of_singleton hrow (ValueKind.makes_of_read hread) hall⟩
  · have hall := hchosen.of_default hnil hnone
    refine settings_of_nil (fun hkey => hconfig ?_) hall
    rw [← hkey]
    exact hall

theorem mode_mem_variableRows : (Key.mode, some "MODE".toList, ValueKind.mode) ∈
    grammar.variableRows := by
  decide +kernel

theorem name_mode_of_read {setting : Setting} {text : Text}
    (h : setting ∈ o.settings .mode) (hread : ValueKind.mode.read text = .ok setting) :
    o.session.mode.name = text := by
  rw [List.mem_singleton.mp h] at hread
  exact ValueKind.name_of_read_mode hread

/-- **The mode is named by the word** that a piece gives for it, and otherwise by its
variable. -/
theorem name_mode_of_word (hfits : ∀ piece ∈ pieces, piece.Fits grammar)
    (h : grammar.Gives environment pieces given) (hconfig : Settings.all given .config ≠ [])
    {text : Text}
    (htext : (∃ row value, .long row value ∈ pieces ∧ row.key = .mode ∧
        (value = .behind text ∨ value = .attached text)) ∨
      (Piece.settings grammar pieces .mode = [] ∧ environment "MODE".toList = some text)) :
    (ofGiven given).session.mode.name = text := by
  have hchosen := chosen hfits h hconfig mode_mem_variableRows
  obtain ⟨taken, -, htaken, -⟩ := h
  rcases htext with ⟨row, value, hpiece, hkey, hvalue⟩ | ⟨hnil, hvariable⟩
  · have hkind : row.kind = .mode := by
      have hall : ∀ row ∈ grammar.rows, row.key = .mode → row.kind = .mode := by decide +kernel
      exact hall row (hfits _ hpiece).1 hkey
    -- the word was read, and what is given for the mode is the one setting that came of it
    obtain ⟨setting, hmem, hread⟩ := Piece.exists_mem_settings_of_long htaken hpiece
    rw [hkey] at hmem
    rw [← hchosen.of_words (List.ne_nil_of_mem hmem)] at hmem
    refine name_mode_of_read hmem ?_
    rcases hvalue with rfl | rfl
    · rwa [Placement.reading, hkind] at hread
    · rwa [Placement.reading, hkind] at hread
  · obtain ⟨setting, hread, hsettings⟩ := hchosen.of_variable hnil text hvariable
    exact name_mode_of_read (hsettings ▸ List.mem_singleton_self setting) hread

/-! ## Command lines -/

theorem parse_pieces_eq_ok_iff (hfits : ∀ piece ∈ pieces, piece.Fits grammar) :
    parse environment (pieces.flatMap Piece.words) = .ok o ↔ ∃ given,
      grammar.Gives environment pieces given ∧ Settings.all given .config ≠ [] ∧
        ofGiven given = o := by
  rw [parse, UsageError.map_eq_ok_iff]
  simp only [Grammar.parse_pieces_eq_ok_iff wellFormed hfits, and_assoc]
  exact Iff.rfl

/-- Pieces that give the same for each key come to the same options. -/
theorem parse_congr {pieces' : List Piece} (hfits : ∀ piece ∈ pieces, piece.Fits grammar)
    (hfits' : ∀ piece ∈ pieces', piece.Fits grammar)
    (hsame : ∀ taken, Reading.takeAll [] (pieces.flatMap (Piece.readings grammar)) = some taken →
      ∃ taken', Reading.takeAll [] (pieces'.flatMap (Piece.readings grammar)) = some taken' ∧
        ∀ key, Settings.all taken' key = Settings.all taken key)
    (h : parse environment (pieces.flatMap Piece.words) = .ok o) :
    parse environment (pieces'.flatMap Piece.words) = .ok o := by
  obtain ⟨given, hgiven, hconfig, rfl⟩ := (parse_pieces_eq_ok_iff hfits).mp h
  obtain ⟨given', hgiven', hall⟩ := hgiven.congr hsame
  refine (parse_pieces_eq_ok_iff hfits').mpr ⟨given', hgiven', ?_, ofGiven_congr hall⟩
  rw [hall]
  exact hconfig

/-- **Options are free in their order, and what is written is preferred.** A command line without
two dashes can be cut into pieces: options with their values, and the path of the profile. However
it is cut, the pieces can be put in any order that keeps the addresses to connect to in theirs
and those to listen at in theirs, and values can be attached to the names in front of them. Each
option is what the pieces give for it; if they give nothing, it is what its variable holds, and if
that is not set either, its default. The mode is the one whose name is the word. The variables of
what the pieces give are not looked at. -/
theorem order_free_and_preferred (environment : Environment) (words : List Text)
    (o : ConfigureOptions) (hdashes : ['-', '-'] ∉ words)
    (h : parse environment words = .ok o) :
    (∃ pieces : List Piece, (∀ piece ∈ pieces, piece.Fits grammar) ∧
      pieces.flatMap Piece.words = words) ∧
    ∀ pieces : List Piece, (∀ piece ∈ pieces, piece.Fits grammar) →
      pieces.flatMap Piece.words = words →
      (∀ arranged : List Piece, arranged.Perm pieces →
        arranged.filter (Piece.gives grammar .connect) =
          pieces.filter (Piece.gives grammar .connect) →
        arranged.filter (Piece.gives grammar .listen) =
          pieces.filter (Piece.gives grammar .listen) →
        parse environment (arranged.flatMap Piece.words) = .ok o) ∧
      (∀ respelled : List Piece, List.Forall₂ Piece.Respelled pieces respelled →
        parse environment (respelled.flatMap Piece.words) = .ok o) ∧
      (∀ row ∈ grammar.variableRows,
        grammar.Chosen environment pieces row (defaults row.1) (o.settings row.1)) ∧
      (∀ text, (∃ row value, .long row value ∈ pieces ∧ row.key = .mode ∧
          (value = .behind text ∨ value = .attached text)) ∨
        (Piece.settings grammar pieces .mode = [] ∧ environment "MODE".toList = some text) →
          o.session.mode.name = text) ∧
      ∀ environment' : Environment,
        (∀ name, environment' name ≠ environment name → ∃ row ∈ grammar.variableRows,
          row.2.1 = some name ∧ Piece.settings grammar pieces row.1 ≠ []) →
        parse environment' words = .ok o := by
  constructor
  · obtain ⟨given, hgiven, -⟩ := UsageError.map_eq_ok_iff.mp h
    exact Grammar.exists_pieces_of_parse wellFormed rfl hdashes hgiven
  rintro pieces hfits rfl
  obtain ⟨given, hgiven, hconfig, rfl⟩ := (parse_pieces_eq_ok_iff hfits).mp h
  refine ⟨fun arranged hperm hconnect hlisten => ?_, fun respelled hrespelled => ?_,
    fun row hrow => chosen hfits hgiven hconfig hrow,
    fun text htext => name_mode_of_word hfits hgiven hconfig htext, fun environment' hother => ?_⟩
  · have hfits' : ∀ piece ∈ arranged, piece.Fits grammar :=
      fun piece hpiece => hfits piece (hperm.mem_iff.mp hpiece)
    refine parse_congr hfits hfits' (fun taken htaken => ?_) h
    refine Piece.exists_takeAll_of_perm wellFormed hfits htaken hperm fun row hrow hrepeats => ?_
    rcases key_of_repeats hrow hrepeats with hkey | hkey
    · rw [hkey, hconnect]
    · rw [hkey, hlisten]
  · refine parse_congr hfits (Piece.fits_of_respelled hrespelled hfits) (fun taken htaken => ?_) h
    exact ⟨taken, by rw [Piece.readings_of_respelled hrespelled, htaken], fun _ => rfl⟩
  · refine (parse_pieces_eq_ok_iff hfits).mpr
      ⟨given, hgiven.of_environment fun row hrow hnil => ?_, hconfig, rfl⟩
    -- another row with the same variable would be the same row
    have hnames : ∀ row ∈ grammar.variableRows, ∀ other ∈ grammar.variableRows,
        row.2.1 = other.2.1 → row.1 = other.1 := by
      decide +kernel
    cases hname : row.2.1 with
    | none => rfl
    | some name =>
        rw [Option.bind_some, Option.bind_some]
        by_contra hne
        obtain ⟨other, hmem, hvariable, hgives⟩ := hother name (Ne.symm hne)
        rw [← hnames row hrow other hmem (hname.trans hvariable.symm)] at hgives
        exact hgives hnil

/-- Two addresses, a mode, a rate and a path, with variables for the service and for the log:
in another order, spelled otherwise, and with variables for the mode and the rate that could
not be read. -/
theorem order_free_and_preferred_two_addresses :
    let environment : Environment := fun name =>
      if name = "SERVICE".toList then some "radar/cli".toList
      else if name = "RUST_LOG".toList then some "WARN".toList
      else none
    let environment' : Environment := fun name =>
      if name = "BAUD".toList then some "fast".toList
      else if name = "MODE".toList then some "clients".toList
      else environment name
    let words : List Text := ["--connect", "tcp/a:1", "radar.cfg", "--mode", "client", "--baud",
      "9600", "--connect=tcp/b:2"].map String.toList
    let arranged : List Text := ["radar.cfg", "--connect", "tcp/a:1", "--connect=tcp/b:2",
      "--baud", "9600", "--mode", "client"].map String.toList
    let respelled : List Text := ["--connect=tcp/a:1", "radar.cfg", "--mode=client",
      "--baud=9600", "--connect=tcp/b:2"].map String.toList
    let o : ConfigureOptions := ⟨"radar.cfg".toList, "radar/cli".toList, defaultNamespace,
      RadarProfile.successMarker, 100000, 30000, none, 9600, false, .upTo .warn, false,
      ⟨.client, ["tcp/a:1".toList, "tcp/b:2".toList], [], false⟩⟩
    parse environment words = .ok o ∧ parse environment arranged = .ok o ∧
      parse environment respelled = .ok o ∧ parse environment' words = .ok o ∧
      o.session.mode.name = "client".toList ∧
      o.settings .service = [.text "radar/cli".toList] ∧
      o.settings .namespaceName = defaults .namespaceName := by
  intro environment environment' words arranged respelled o
  have hparse : parse environment words = .ok o := by decide +kernel
  let connect : OptionRow :=
    { OptionRow.withVariable .connect "connect" "CONNECT" .text with repeats := true }
  let mode : OptionRow := .withVariable .mode "mode" "MODE" .mode
  let baud : OptionRow := .withVariable .baud "baud" "BAUD" (.integer greatest32)
  let first : Piece := .long connect (.behind "tcp/a:1".toList)
  let path : Piece := .operand "radar.cfg".toList
  let part : Piece := .long mode (.behind "client".toList)
  let rate : Piece := .long baud (.behind "9600".toList)
  let second : Piece := .long connect (.attached "tcp/b:2".toList)
  have hfits : ∀ piece ∈ [first, path, part, rate, second], piece.Fits grammar := by
    have hconnect : connect ∈ grammar.rows := by decide +kernel
    have hmode : mode ∈ grammar.rows := by decide +kernel
    have hbaud : baud ∈ grammar.rows := by decide +kernel
    simp only [List.forall_mem_cons, List.not_mem_nil, false_implies, implies_true, and_true]
    exact ⟨⟨hconnect, rfl, rfl⟩, ⟨rfl, rfl⟩, ⟨hmode, rfl, rfl⟩, ⟨hbaud, rfl, rfl⟩,
      ⟨hconnect, rfl⟩⟩
  obtain ⟨-, hall⟩ := order_free_and_preferred environment words o (by decide +kernel) hparse
  obtain ⟨harranged, hrespelled, hchosen, hname, hvariables⟩ :=
    hall [first, path, part, rate, second] hfits (by decide +kernel)
  refine ⟨hparse, ?_, ?_, hvariables environment' fun name hother => ?_, ?_, ?_, ?_⟩
  · exact harranged [path, first, second, rate, part] (by decide +kernel) (by decide +kernel)
      (by decide +kernel)
  · exact hrespelled [.long connect (.attached "tcp/a:1".toList), path,
      .long mode (.attached "client".toList), .long baud (.attached "9600".toList), second]
      (.cons (.attached _ _) (.cons (.same _) (.cons (.attached _ _) (.cons (.attached _ _)
        (.cons (.same _) .nil)))))
  · by_cases hbaud : name = "BAUD".toList
    · rw [hbaud]
      exact ⟨(.baud, some "BAUD".toList, .integer greatest32), by decide +kernel, rfl,
        by decide +kernel⟩
    · by_cases hmode : name = "MODE".toList
      · rw [hmode]
        exact ⟨_, mode_mem_variableRows, rfl, by decide +kernel⟩
      · exact absurd ((if_neg hbaud).trans (if_neg hmode)) hother
  · exact hname "client".toList
      (.inl ⟨mode, .behind "client".toList, by decide +kernel, rfl, .inl rfl⟩)
  · obtain ⟨setting, hread, hsettings⟩ :=
      (hchosen (.service, some "SERVICE".toList, .text) (by decide +kernel)).of_variable
        (by decide +kernel) "radar/cli".toList (by decide +kernel)
    cases hread
    exact hsettings
  · exact (hchosen (.namespaceName, some "NAMESPACE".toList, .text) (by decide +kernel)).of_default
      (by decide +kernel) (by decide +kernel)

end ConfigureOptions

end RadarProfile
