import RadarProfile.Proofs.Cutting
import RadarProfile.Proofs.Variables

set_option autoImplicit false

/-! # Passing a command on

A command begins with the first word that is no option, or behind two dashes, and takes every word
that follows. So the command line of the program that forwards a command is pieces, perhaps two
dashes, and the command (`ForwardOptions.parse_eq_ok_iff`), and whatever is written behind it
belongs to the command (`ForwardOptions.command_passed_on`). -/

namespace RadarProfile

/-- What may stand between the pieces and the first word of a command: two dashes, or nothing if
the word is no option. -/
def Grammar.Leads (g : Grammar) (lead : List Text) (first : Text) : Prop :=
  (lead = [] ∧ g.isWord first = true) ∨ lead = [['-', '-']]

theorem Operand.kind_of_takesDashes {operand : Operand} (h : operand.takesDashes = true) :
    operand.kind = .text := by
  cases operand with
  | single key variableName kind => cases h
  | command key => rfl

namespace Scan

variable {g : Grammar} {scan scanned : Scan} {given : List Given}

/-! ## The scan of a command -/

def withCommand (g : Grammar) (given : List Given) (command : List Text) : Scan :=
  ⟨given ++ command.map fun word => ⟨g.operand.key, .text word⟩, .nothing, true, true⟩

theorem all_withCommand (given : List Given) (command : List Text) {key : Key}
    (hkey : key ≠ g.operand.key) :
    Settings.all (withCommand g given command).given key = Settings.all given key := by
  have hnil : Settings.all (command.map fun word => ⟨g.operand.key, .text word⟩) key = [] := by
    refine Settings.all_eq_nil_iff.mpr fun x hx => ?_
    obtain ⟨word, -, rfl⟩ := List.mem_map.mp hx
    exact hkey.symm
  rw [withCommand, Settings.all_append, hnil, List.append_nil]

theorem all_withCommand_operand (given : List Given) (command : List Text) :
    Settings.all (withCommand g given command).given g.operand.key =
      Settings.all given g.operand.key ++ command.map .text := by
  have hall : Settings.all (command.map fun word => ⟨g.operand.key, .text word⟩) g.operand.key =
      command.map .text := by
    rw [Settings.all, List.filter_eq_self.mpr, List.map_map]
    · rfl
    · intro x hx
      obtain ⟨word, -, rfl⟩ := List.mem_map.mp hx
      exact beq_self_eq_true _
  rw [withCommand, Settings.all_append, hall]

theorem giveWords_text (key : Key) (words : List Text) :
    giveWords key .text words = .ok (words.map fun word => ⟨key, .text word⟩) := by
  induction words with
  | nil => rfl
  | cons word rest ih =>
      rw [giveWords, ih]
      rfl

/-- A command takes all words, and any word can be read. -/
theorem scanWords_operand (hcommand : g.operand.takesDashes = true) (taken words : List Text) :
    scanWords g words ⟨given, .operand taken, true, true⟩ =
      .ok (withCommand g given (taken ++ words)) := by
  -- along the words, of which some are taken already
  induction words generalizing taken with
  | nil =>
      rw [scanWords, settle, Operand.kind_of_takesDashes hcommand]
      dsimp only
      rw [giveWords_text, List.append_nil]
      rfl
  | cons word rest ih =>
      rw [scanWords, step_of_optionsEnded rfl, takeWord_more hcommand rfl]
      dsimp only
      rw [ih, List.append_assoc, List.singleton_append]

theorem Holds.scanWords_command (h : scan.Holds g given)
    (hcommand : g.operand.takesDashes = true) {lead : List Text} {first : Text}
    (hlead : g.Leads lead first) (rest : List Text) :
    scanWords g (lead ++ first :: rest) scan = .ok (withCommand g given (first :: rest)) := by
  have hmore : scanWords g rest ⟨given, .operand [first], true, true⟩ =
      .ok (withCommand g given (first :: rest)) := scanWords_operand hcommand [first] rest
  rcases hlead with ⟨rfl, hfirst⟩ | rfl
  · rw [List.nil_append, scanWords, step_of_isWord h.optionsEnded_eq hfirst,
      takeWord_first hcommand h.settle_eq (h.not_command hcommand) h.not_awaiting]
    exact hmore
  · have hended : { scan with optionsEnded := true }.settle g.operand =
        .ok { atRest g given with optionsEnded := true } := by
      rw [settle_endOptions, h.settle_eq]
      rfl
    have hword : { scan with optionsEnded := true }.takeWord g.operand first =
        .ok ⟨given, .operand [first], true, true⟩ :=
      takeWord_first hcommand hended (h.not_command hcommand) h.not_awaiting first
    rw [List.singleton_append, scanWords, step_dashes h.optionsEnded_eq]
    dsimp only
    rw [scanWords, step_of_optionsEnded rfl, hword]
    exact hmore

section
variable (hg : g.WellFormed) (hcommand : g.operand.takesDashes = true)
include hg hcommand

theorem scanWords_pieces_command {pieces : List Piece} (hfits : ∀ piece ∈ pieces, piece.Fits g)
    (htaken : Reading.takeAll [] (pieces.flatMap (Piece.readings g)) = some given)
    {lead : List Text} {first : Text} (hlead : g.Leads lead first) (rest : List Text) :
    scanWords g (pieces.flatMap Piece.words ++ (lead ++ first :: rest)) start =
      .ok (withCommand g given (first :: rest)) := by
  have hreaches := reaches_pieces hg (holds_atRest g []) hfits
  rw [htaken] at hreaches
  obtain ⟨next, hnext, hrest⟩ := hreaches
  exact (hrest _).trans (hnext.scanWords_command hcommand hlead rest)

/-- Options do not give the command. -/
theorem all_operand_eq_nil {pieces : List Piece} (hfits : ∀ piece ∈ pieces, piece.Fits g)
    (htaken : Reading.takeAll [] (pieces.flatMap (Piece.readings g)) = some given) :
    Settings.all given g.operand.key = [] := by
  refine Settings.all_eq_nil_iff.mpr fun x hx => ?_
  obtain ⟨r, hr, hgiven⟩ := Reading.exists_reading_of_takeAll htaken hx
  obtain ⟨piece, hpiece, hr⟩ := List.mem_flatMap.mp hr
  rw [Reading.key_of_given? hgiven]
  rcases Piece.row_of_mem_readings (hfits piece hpiece) hr with hrow | ⟨hsingle, -⟩
  · exact hg.key_ne r.row hrow
  · rw [hcommand] at hsingle
    cases hsingle

/-- A scan that finds a command has found pieces in front of it. -/
theorem exists_command {words : List Text} (h : scanWords g words start = .ok scanned)
    (hfound : Settings.all scanned.given g.operand.key ≠ []) :
    ∃ (pieces : List Piece) (given : List Given) (lead : List Text) (first : Text)
      (rest : List Text), (∀ piece ∈ pieces, piece.Fits g) ∧
      Reading.takeAll [] (pieces.flatMap (Piece.readings g)) = some given ∧
      g.Leads lead first ∧ words = pieces.flatMap Piece.words ++ (lead ++ first :: rest) ∧
      scanned = withCommand g given (first :: rest) := by
  obtain ⟨pieces, tail, hfits, rfl, htail⟩ :=
    exists_pieces between_start h
  have hreaches := reaches_pieces hg (holds_atRest g []) hfits
  cases htaken : Reading.takeAll [] (pieces.flatMap (Piece.readings g)) with
  | none =>
      rw [htaken] at hreaches
      exact absurd h (hreaches tail scanned)
  | some given =>
      rw [htaken] at hreaches
      obtain ⟨next, hnext, hrest⟩ := hreaches
      have hnil := all_operand_eq_nil hg hcommand hfits htaken
      have hscan : scanWords g tail next = .ok scanned := (hrest tail).symm.trans h
      cases htail with
      | nil =>
          -- no command was begun
          rw [scanWords, hnext.settle_eq] at hscan
          cases hscan
          exact absurd hnil hfound
      | ended after =>
          cases after with
          | nil =>
              -- nor behind two dashes at the very end
              rw [scanWords, step_dashes hnext.optionsEnded_eq] at hscan
              dsimp only at hscan
              rw [scanWords, settle_endOptions, hnext.settle_eq] at hscan
              cases hscan
              exact absurd hnil hfound
          | cons first rest =>
              have hlead : g.Leads [['-', '-']] first := Or.inr rfl
              have hscanned := hnext.scanWords_command hcommand hlead rest
              refine ⟨pieces, given, [['-', '-']], first, rest, hfits, htaken, hlead, rfl, ?_⟩
              exact Except.ok.inj (hscan.symm.trans hscanned)
      | @command first rest _ hfirst =>
          have hlead : g.Leads [] first := Or.inl ⟨rfl, hfirst⟩
          have hscanned := hnext.scanWords_command hcommand hlead rest
          refine ⟨pieces, given, [], first, rest, hfits, htaken, hlead, rfl, ?_⟩
          exact Except.ok.inj (hscan.symm.trans hscanned)

end

end Scan

/-! ## Command lines -/

namespace Grammar

variable {g : Grammar} {environment : Environment} {words : List Text}

/-- Variables are looked at as if there were no command. -/
theorem forall₂_supplies_withCommand (hg : g.WellFormed) (hcommand : g.operand.takesDashes = true)
    (taken : List Given) (command : List Text) (extra : List (List Given)) :
    List.Forall₂ (Supplies environment (Scan.withCommand g taken command)) g.variableRows extra ↔
      List.Forall₂ (Supplies environment (Scan.atRest g taken)) g.variableRows extra := by
  refine forall₂_supplies_congr fun row hrow found => supplies_congr (Scan.lacks_congr ?_)
    fun _ => rfl
  refine Scan.all_withCommand taken command ?_
  exact ne_operand_key_of_mem_variableRows hg hcommand hrow

theorem all_operand_eq_nil_of_supplies (hg : g.WellFormed)
    (hcommand : g.operand.takesDashes = true) {scan : Scan} {extra : List (List Given)}
    (h : List.Forall₂ (Supplies environment scan) g.variableRows extra) :
    Settings.all extra.flatten g.operand.key = [] := by
  refine all_eq_nil_of_supplies h fun hmem => ?_
  obtain ⟨row, hrow, hkey⟩ := List.mem_map.mp hmem
  exact ne_operand_key_of_mem_variableRows hg hcommand hrow hkey

/-- **What a command line with a command comes to**: what its pieces and the variables give, and
the command, which is everything behind the pieces but for two dashes. -/
theorem parse_command_eq_ok_iff (hg : g.WellFormed) (hcommand : g.operand.takesDashes = true)
    {all : List Given} : g.parse environment words = .ok all ↔
      ∃ (pieces : List Piece) (taken : List Given) (extra : List (List Given)) (lead : List Text)
        (first : Text) (rest : List Text), (∀ piece ∈ pieces, piece.Fits g) ∧
        Reading.takeAll [] (pieces.flatMap (Piece.readings g)) = some taken ∧
        List.Forall₂ (Supplies environment (Scan.atRest g taken)) g.variableRows extra ∧
        g.Leads lead first ∧ words = pieces.flatMap Piece.words ++ (lead ++ first :: rest) ∧
        all = (Scan.withCommand g taken (first :: rest)).given ++ extra.flatten := by
  rw [parse_eq_ok_iff hg]
  constructor
  · rintro ⟨scanned, extra, hscan, hextra, rfl, hfound⟩
    rw [Settings.all_append, all_operand_eq_nil_of_supplies hg hcommand hextra,
      List.append_nil] at hfound
    obtain ⟨pieces, taken, lead, first, rest, hfits, htaken, hlead, rfl, rfl⟩ :=
      Scan.exists_command hg hcommand hscan hfound
    exact ⟨pieces, taken, extra, lead, first, rest, hfits, htaken,
      (forall₂_supplies_withCommand hg hcommand taken _ extra).mp hextra, hlead, rfl, rfl⟩
  · rintro ⟨pieces, taken, extra, lead, first, rest, hfits, htaken, hextra, hlead, rfl, rfl⟩
    refine ⟨_, extra, Scan.scanWords_pieces_command hg hcommand hfits htaken hlead rest,
      (forall₂_supplies_withCommand hg hcommand taken _ extra).mpr hextra, rfl, ?_⟩
    rw [Settings.all_append, Scan.all_withCommand_operand]
    simp

end Grammar

namespace ForwardOptions

variable {environment : Environment} {words : List Text} {o : ForwardOptions}

theorem ofGiven_eq {given given' : List Given} (h : ∀ key, key ≠ .retry → key ≠ .command →
      Settings.all given' key = Settings.all given key) :
    ofGiven given' = { ofGiven given with
      retry := Settings.switch given' .retry, command := Settings.texts given' .command } := by
  simp only [ofGiven, SessionOptions.ofGiven, Settings.text?, Settings.texts, Settings.number,
    Settings.switch, Settings.mode, h .service (by decide) (by decide),
    h .timeout (by decide) (by decide), h .mode (by decide) (by decide),
    h .connect (by decide) (by decide), h .listen (by decide) (by decide),
    h .noMulticastScouting (by decide) (by decide)]

theorem ofGiven_withCommand {taken extra : List Given} (command : List Text)
    (htaken : Settings.all taken .command = []) (hextra : Settings.all extra .command = []) :
    ofGiven ((Scan.withCommand grammar taken command).given ++ extra) =
      { ofGiven (taken ++ extra) with command := command } := by
  have hothers : ∀ key, key ≠ .command →
      Settings.all ((Scan.withCommand grammar taken command).given ++ extra) key =
        Settings.all (taken ++ extra) key := by
    intro key hkey
    rw [Settings.all_append, Scan.all_withCommand taken command hkey, Settings.all_append]
  have hcommand : Settings.texts ((Scan.withCommand grammar taken command).given ++ extra)
      .command = command := by
    have hall := Scan.all_withCommand_operand (g := grammar) taken command
    rw [show grammar.operand.key = .command from rfl, htaken, List.nil_append] at hall
    rw [Settings.texts, Settings.all_append, hall, hextra, List.append_nil, List.filterMap_map]
    exact List.filterMap_some
  rw [ofGiven_eq fun key _ hkey => hothers key hkey, hcommand, Settings.switch,
    hothers .retry (by decide)]
  rfl

/-- **What a command line of the forwarding program comes to.** -/
theorem parse_eq_ok_iff : parse environment words = .ok o ↔
    ∃ (pieces : List Piece) (given : List Given) (lead : List Text) (first : Text)
      (rest : List Text), (∀ piece ∈ pieces, piece.Fits grammar) ∧
      grammar.Gives environment pieces given ∧ grammar.Leads lead first ∧
      words = pieces.flatMap Piece.words ++ (lead ++ first :: rest) ∧
      o = { ofGiven given with command := first :: rest } := by
  have hcommand : grammar.operand.takesDashes = true := rfl
  rw [parse, UsageError.map_eq_ok_iff]
  constructor
  · rintro ⟨all, hparse, rfl⟩
    obtain ⟨pieces, taken, extra, lead, first, rest, hfits, htaken, hextra, hlead, hwords, rfl⟩ :=
      (Grammar.parse_command_eq_ok_iff wellFormed hcommand).mp hparse
    refine ⟨pieces, _, lead, first, rest, hfits, ⟨taken, extra, htaken, hextra, rfl⟩, hlead,
      hwords, ?_⟩
    exact ofGiven_withCommand _ (Scan.all_operand_eq_nil wellFormed hcommand hfits htaken)
      (Grammar.all_operand_eq_nil_of_supplies wellFormed hcommand hextra)
  · rintro ⟨pieces, given, lead, first, rest, hfits, ⟨taken, extra, htaken, hextra, rfl⟩, hlead,
      hwords, rfl⟩
    refine ⟨_, (Grammar.parse_command_eq_ok_iff wellFormed hcommand).mpr ⟨pieces, taken, extra,
      lead, first, rest, hfits, htaken, hextra, hlead, hwords, rfl⟩, ?_⟩
    exact ofGiven_withCommand _ (Scan.all_operand_eq_nil wellFormed hcommand hfits htaken)
      (Grammar.all_operand_eq_nil_of_supplies wellFormed hcommand hextra)

/-! ## Words behind a command -/

/-- **No word of a command is interpreted.** What stands in front of it are options that the
program knows, with their values, and perhaps two dashes, which are dropped. Whatever is written
behind it becomes part of it and changes no option. -/
theorem command_passed_on (environment : Environment) (words : List Text) (o : ForwardOptions)
    (h : parse environment words = .ok o) :
    o.command ≠ [] ∧ o.command <:+ words ∧
      (∃ pieces : List Piece, (∀ piece ∈ pieces, piece.Fits grammar) ∧
        ((words = pieces.flatMap Piece.words ++ o.command ∧
            ∀ first ∈ o.command.head?, grammar.isWord first = true) ∨
          words = pieces.flatMap Piece.words ++ ['-', '-'] :: o.command)) ∧
      ∀ more : List Text,
        parse environment (words ++ more) = .ok { o with command := o.command ++ more } := by
  obtain ⟨pieces, given, lead, first, rest, hfits, hgiven, hlead, hwords, rfl⟩ :=
    parse_eq_ok_iff.mp h
  dsimp only
  refine ⟨List.cons_ne_nil _ _, ?_, ⟨pieces, hfits, ?_⟩, fun more => ?_⟩
  · rw [hwords, ← List.append_assoc]
    exact List.suffix_append _ _
  · rcases hlead with ⟨rfl, hfirst⟩ | rfl
    · refine Or.inl ⟨hwords, fun word hword => ?_⟩
      cases hword
      exact hfirst
    · exact Or.inr hwords
  · refine parse_eq_ok_iff.mpr ⟨pieces, given, lead, first, rest ++ more, hfits, hgiven, hlead,
      ?_, rfl⟩
    rw [hwords]
    simp only [List.append_assoc, List.cons_append]

/-- A command that begins with the name of an option. -/
theorem command_passed_on_behind_dashes :
    let environment : Environment := fun name =>
      if name = "MODE".toList then some "client".toList else none
    let words : List Text := ["-r", "--service=radar/cli", "--", "--retry", "-s", ""].map
      String.toList
    let o : ForwardOptions := ⟨"radar/cli".toList, 30000, true, ⟨.client, [], [], false⟩,
      ["--retry", "-s", ""].map String.toList⟩
    parse environment words = .ok o ∧ o.command <:+ words ∧ ∀ more : List Text,
      parse environment (words ++ more) = .ok { o with command := o.command ++ more } := by
  intro environment words o
  have hparse : parse environment words = .ok o := by decide +kernel
  obtain ⟨-, hsuffix, -, hmore⟩ := command_passed_on environment words o hparse
  exact ⟨hparse, hsuffix, hmore⟩

end ForwardOptions

end RadarProfile
