import Mathlib.Logic.Relation
import RadarProfile.Proofs.Decoding
import RadarProfile.Proofs.SilentLines
import RadarProfile.Proofs.Stream

set_option autoImplicit false

/-! # The layout of a profile

Carriage returns, blank lines, comments and the newline at the very end are layout: they may
be put in or taken out anywhere (`Edit`, `SameUpToLayout`). What a text asks of the sensor are
its commands, and no edit changes them (`Edit.commands_eq`). So runs over texts that differ
in layout alone do the same (`Driver.run_same_layout`). The lines that are read do not depend
on carriage returns either, save that a text with nothing else behind its last newline has
one more line for them (`Text.lines_eq_of_bare`). -/

namespace RadarProfile

/-! ## The lines of a text -/

namespace Text

/-- A text without its carriage returns. -/
def bare (s : Text) : Text := s.filter (· != '\r')

def lines (s : Text) : List Line := Line.ofRaws 0 (Lines.all '\n' s)

def commands (s : Text) : List Text := s.lines.filterMap Line.command?

def passedOver (s : Text) : Nat :=
  s.lines.countP fun line => line.kind = .blank ∨ line.kind = .comment

/-- Something stands behind the last newline of a text, but carriage returns only. -/
def endsInReturns (s : Text) : Bool :=
  !(Lines.rest '\n' s).isEmpty && (Lines.rest '\n' s).all (· == '\r')

end Text

namespace Reader

/-- Chunks whose bytes are those of a text, however they are cut and interrupted. -/
def Holds (chunks : List Chunk) (s : Text) : Prop :=
  Segments.ofChunks chunks = ⟨[], Utf8.encode s⟩

theorem holds_bytes (s : Text) : Holds [.bytes (Utf8.encode s)] s :=
  congrArg (Segments.mk []) (List.append_nil _)

/-- **What is read of a text are its lines.** -/
theorem Holds.read_eq {chunks : List Chunk} {s : Text} (h : Holds chunks s) :
    read chunks = s.lines.map .ok := by
  have hrows : (Lines.all newline (Utf8.encode s)).map Utf8.decode = Lines.all '\n' s := by
    rw [← Utf8.all_decode, Utf8.decode_encode]
  rw [read_eq_items, h, Segments.itemsAfter, Segments.itemsFrom, linesAfter_eq, hrows]
  rfl

theorem Holds.source_eq {chunks : List Chunk} {s : Text} (h : Holds chunks s) :
    Source.ofStream (.ofChunks chunks) = ⟨s.lines.map .ok, true⟩ := by
  rw [Source.ofStream, ByteStream.items, h.read_eq, untilFaults_map_ok]

end Reader

/-! ## Carriage returns -/

namespace Line

/-- The command of a raw text, which does not depend on where the text stands. -/
def commandOf? (raw : Text) : Option Text := (ofRaw 0 raw).command?

theorem filterMap_command?_ofRaws (number : Nat) (raws : List Text) :
    (ofRaws number raws).filterMap command? = raws.filterMap commandOf? := by
  induction raws generalizing number with
  | nil => rfl
  | cons raw rest ih =>
      have hraw : (ofRaw (number + 1) raw).command? = commandOf? raw := rfl
      rw [ofRaws, List.filterMap_cons, List.filterMap_cons, hraw, ih]

theorem ofRaw_bare (number : Nat) (raw : Text) : ofRaw number raw.bare = ofRaw number raw := by
  rw [ofRaw, ofRaw, Text.bare, List.filter_filter]
  simp only [Bool.and_self]

theorem ofRaws_map_bare (number : Nat) (raws : List Text) :
    ofRaws number (raws.map Text.bare) = ofRaws number raws := by
  induction raws generalizing number with
  | nil => rfl
  | cons raw rest ih => rw [List.map_cons, ofRaws, ofRaws, ih, ofRaw_bare]

end Line

namespace Text

theorem newline_not_mem_bare {s : Text} (h : '\n' ∉ s) : '\n' ∉ s.bare :=
  fun hmem => h (List.mem_filter.mp hmem).1

theorem endsInReturns_iff (s : Text) :
    s.endsInReturns = true ↔ Lines.rest '\n' s ≠ [] ∧ bare (Lines.rest '\n' s) = [] := by
  rw [endsInReturns, bare, Bool.and_eq_true, Bool.not_eq_true', List.isEmpty_eq_false_iff,
    List.all_eq_true, List.filter_eq_nil_iff]
  simp only [beq_iff_eq, bne_iff_ne, ne_eq, not_not]

theorem bare_join (rows : List Text) :
    bare (Lines.join '\n' rows) = Lines.join '\n' (rows.map bare) := by
  induction rows with
  | nil => rfl
  | cons row rows ih =>
      have hrow : bare (row ++ ['\n']) = row.bare ++ ['\n'] := List.filter_append _ _
      have hjoin : bare (Lines.join '\n' (row :: rows)) =
          bare (row ++ ['\n']) ++ bare (Lines.join '\n' rows) := List.filter_append _ _
      rw [hjoin, hrow, ih]
      rfl

/-- A text is cut where it is cut without its carriage returns. -/
theorem cut_bare (s : Text) :
    Lines.ended '\n' s.bare = (Lines.ended '\n' s).map bare ∧
      Lines.rest '\n' s.bare = bare (Lines.rest '\n' s) := by
  rw [Lines.cut_iff, ← bare_join]
  refine ⟨?_, ?_, newline_not_mem_bare (Lines.not_mem_rest s)⟩
  · calc s.bare
        = bare (Lines.join '\n' (Lines.ended '\n' s) ++ Lines.rest '\n' s) := by
          rw [Lines.join_append_rest]
      _ = _ := List.filter_append _ _
  · intro row hrow
    obtain ⟨raw, hraw, rfl⟩ := List.mem_map.mp hrow
    exact newline_not_mem_bare (Lines.not_mem_of_mem_ended hraw)

/-- **Carriage returns change no line** but the last: where there is nothing else behind the
last newline, they are a blank line of their own. -/
theorem lines_eq_of_bare (s : Text) :
    s.lines = s.bare.lines ++
      if s.endsInReturns then [⟨(Lines.ended '\n' s).length + 1, []⟩] else [] := by
  obtain ⟨hended, hrest⟩ := cut_bare s
  rw [lines, lines, Lines.all, Lines.all, hended, hrest, Line.ofRaws_append,
    Line.ofRaws_append, Line.ofRaws_map_bare, List.length_map, List.append_assoc]
  congr 1
  by_cases hreturns : bare (Lines.rest '\n' s) = []
  · by_cases hnone : Lines.rest '\n' s = []
    · rw [if_pos hnone, if_pos hreturns, if_neg fun h => (endsInReturns_iff s).mp h |>.1 hnone]
      rfl
    · have hline : Line.ofRaw ((Lines.ended '\n' s).length + 1) (Lines.rest '\n' s) =
          ⟨(Lines.ended '\n' s).length + 1, []⟩ := congrArg (Line.mk _) hreturns
      rw [if_neg hnone, if_pos hreturns, if_pos ((endsInReturns_iff s).mpr ⟨hnone, hreturns⟩),
        Nat.zero_add]
      exact congrArg (fun line => [line]) hline
  · have hsome : Lines.rest '\n' s ≠ [] := fun hnil => hreturns (by rw [hnil]; rfl)
    rw [if_neg hsome, if_neg hreturns,
      if_neg fun h => hreturns ((endsInReturns_iff s).mp h).2, List.append_nil]
    exact (Line.ofRaws_map_bare _ [Lines.rest '\n' s]).symm

/-! ## The commands of a text -/

theorem commands_eq (s : Text) :
    s.commands = (s.splitOnP (· == '\n')).filterMap Line.commandOf? := by
  rw [commands, lines, Line.filterMap_command?_ofRaws, Lines.splitOnP_eq, Lines.all,
    List.filterMap_append, List.filterMap_append]
  congr 1
  by_cases hnil : Lines.rest '\n' s = []
  · rw [if_pos hnil, hnil]
    rfl
  · rw [if_neg hnil]

theorem commands_bare (s : Text) : s.bare.commands = s.commands := by
  rw [commands, commands, lines_eq_of_bare s, List.filterMap_append]
  split_ifs
  · exact (List.append_nil _).symm
  · exact (List.append_nil _).symm

/-- **A newline parts the commands** before it from those after it. -/
theorem commands_append_newline (s s' : Text) :
    commands (s ++ '\n' :: s') = s.commands ++ s'.commands := by
  have hsplit : (s ++ '\n' :: s').splitOnP (· == '\n') =
      s.splitOnP (· == '\n') ++ s'.splitOnP (· == '\n') :=
    List.splitOnP_append_cons s s' (beq_self_eq_true '\n')
  rw [commands_eq, commands_eq, commands_eq, hsplit, List.filterMap_append]

/-- A row that is blank or a comment has no command in it. -/
theorem commands_of_silent {row : Text} (hwhole : '\n' ∉ row)
    (hsilent : (Line.ofRaw 0 row).kind ≠ .command) : row.commands = [] := by
  obtain ⟨hended, hrest⟩ := Lines.cut_of_not_mem hwhole
  have hcommand : Line.commandOf? row = none := by
    rw [Line.commandOf?, Line.command?_eq, if_neg hsilent]
  rw [commands_eq, Lines.splitOnP_eq, hended, hrest, List.nil_append,
    List.filterMap_cons_none hcommand, List.filterMap_nil]

end Text

/-! ## Edits -/

/-- One edit of the layout: a carriage return is put in anywhere, a whole line that is blank
or a comment is put in where a line begins, or a newline is put at the end. -/
inductive Edit : Text → Text → Prop where
  | insertReturn (before after : Text) : Edit (before ++ after) (before ++ '\r' :: after)
  | insertLine {before row : Text} (after : Text)
      (begins : before = [] ∨ ∃ earlier, before = earlier ++ ['\n'])
      (whole : '\n' ∉ row)
      (silent : (Line.ofRaw 0 row).kind = .blank ∨ (Line.ofRaw 0 row).kind = .comment) :
      Edit (before ++ after) (before ++ row ++ '\n' :: after)
  | endLine (s : Text) : Edit s (s ++ ['\n'])

/-- Texts that edits of the layout, made or undone, turn into each other. So a comment may
stand behind the last line as well: that line is ended, the comment is put in, and its own
newline is taken away. -/
def SameUpToLayout : Text → Text → Prop := Relation.EqvGen Edit

/-- **No edit changes the commands.** -/
theorem Edit.commands_eq {s s' : Text} (h : Edit s s') : s.commands = s'.commands := by
  cases h with
  | insertReturn before after =>
      have hbare : Text.bare (before ++ '\r' :: after) = Text.bare (before ++ after) := by
        rw [Text.bare, Text.bare, List.filter_append, List.filter_append,
          List.filter_cons_of_neg (by decide)]
      rw [← Text.commands_bare, ← hbare, Text.commands_bare]
  | @insertLine before row after begins whole silent =>
      have hnone : row.commands = [] := by
        refine Text.commands_of_silent whole fun hcommand => ?_
        rw [hcommand] at silent
        simp at silent
      rcases begins with rfl | ⟨earlier, rfl⟩
      · rw [List.nil_append, List.nil_append, Text.commands_append_newline, hnone,
          List.nil_append]
      · rw [List.append_assoc, List.append_assoc, List.append_assoc, List.singleton_append,
          List.singleton_append, Text.commands_append_newline, Text.commands_append_newline,
          Text.commands_append_newline, hnone, List.nil_append]
  | endLine =>
      rw [Text.commands_append_newline]
      exact (List.append_nil _).symm

theorem SameUpToLayout.commands_eq {s s' : Text} (h : SameUpToLayout s s') :
    s.commands = s'.commands := by
  induction h with
  | rel _ _ hedit => exact hedit.commands_eq
  | refl _ => rfl
  | symm _ _ _ ih => exact ih.symm
  | trans _ _ _ _ _ ih ih' => exact ih.trans ih'

theorem sameUpToLayout_append_bare (before s : Text) :
    SameUpToLayout (before ++ s) (before ++ s.bare) := by
  induction s generalizing before with
  | nil => exact .refl _
  | cons c rest ih =>
      by_cases hc : c = '\r'
      · subst hc
        exact .trans _ _ _ (.symm _ _ (.rel _ _ (.insertReturn before rest))) (ih before)
      · have hkept : Text.bare (c :: rest) = c :: Text.bare rest :=
          List.filter_cons_of_pos (bne_iff_ne.mpr hc)
        have hrest := ih (before ++ [c])
        rw [List.append_assoc, List.append_assoc] at hrest
        rw [hkept]
        exact hrest

theorem sameUpToLayout_bare (s : Text) : SameUpToLayout s s.bare :=
  sameUpToLayout_append_bare [] s

/-! ## Runs -/

namespace Driver

variable {σ τ : Type}

/-- **The layout of a profile does not matter** to the sensor or the store. Runs over texts
of different layout have the same effects, leave the endpoint and the store in the same
state and end in the same way; a run that succeeds counts the blank lines and comments of
its own text. For the reader as well, carriage returns do not matter, save where nothing
else stands behind the last newline. -/
theorem run_same_layout {s s' : Text} (h : SameUpToLayout s s') {chunks chunks' : List Chunk}
    (hs : Reader.Holds chunks s) (hs' : Reader.Holds chunks' s') (d : Driver σ τ) (state : σ)
    (stored : τ) :
    let run := d.run (.ofStream (.ofChunks chunks)) state stored
    let run' := d.run (.ofStream (.ofChunks chunks')) state stored
    run.chronicle.effects = run'.chronicle.effects ∧ run.endpoint = run'.endpoint ∧
      run.store = run'.store ∧
      ((∃ error, run.result = .error error ∧ run'.result = .error error) ∨
        ∃ summary : Summary, run.result = .ok { summary with skipped := s.passedOver } ∧
          run'.result = .ok { summary with skipped := s'.passedOver }) ∧
      ∀ chunks'', Reader.Holds chunks'' s.bare →
        Reader.read chunks = Reader.read chunks'' ++
          if s.endsInReturns then [.ok ⟨(Lines.ended '\n' s).length + 1, []⟩] else [] := by
  intro run run'
  have hruns := d.run_same_of_commands (h.commands_eq.symm : s'.commands = s.commands) true
    state stored
  rw [skippedIn_eq, skippedIn_eq, ← hs.source_eq, ← hs'.source_eq] at hruns
  obtain ⟨heffects, hendpoint, hstore, hresult⟩ := hruns
  refine ⟨heffects, hendpoint, hstore, hresult, fun chunks'' hbare => ?_⟩
  rw [hs.read_eq, hbare.read_eq, s.lines_eq_of_bare, List.map_append]
  split_ifs
  · rfl
  · rfl

/-- A carriage return inside a word and one behind the last newline, a comment, and a newline
at the end: two lines more are passed over, and nothing else changes. -/
theorem run_same_layout_of_returns :
    let s : Text := "chirp\rCfg 0 0\n\r% rx\nchannelCfg 15 3\n\r".toList
    let s' : Text := "chirpCfg 0 0\nchannelCfg 15 3".toList
    let chunks : List Chunk := [.bytes (Utf8.encode s)]
    let chunks' : List Chunk := [.bytes (Utf8.encode "chirpCfg".toList), .failed .interrupted,
      .bytes (Utf8.encode " 0 0\nchannelCfg 15 3".toList)]
    let d := Scripted.driver ["numRxAnt".toList]
    let run := d.run (.ofStream (.ofChunks chunks)) [.ok "Error".toList] []
    let run' := d.run (.ofStream (.ofChunks chunks')) [.ok "Error".toList] []
    SameUpToLayout s s' ∧ run.chronicle.effects = run'.chronicle.effects ∧
      run.result = .ok ⟨2, 2, 3, 1⟩ ∧ run'.result = .ok ⟨2, 0, 3, 1⟩ ∧
      Reader.read chunks = Reader.read [.bytes (Utf8.encode s.bare)] ++ [.ok ⟨4, []⟩] := by
  intro s s' chunks chunks' d run run'
  have hcomment : SameUpToLayout (s' ++ ['\n']) s.bare := by
    have hedit : Edit ("chirpCfg 0 0".toList ++ ['\n'] ++ "channelCfg 15 3\n".toList)
        ("chirpCfg 0 0".toList ++ ['\n'] ++ "% rx".toList ++
          '\n' :: "channelCfg 15 3\n".toList) :=
      .insertLine _ (Or.inr ⟨_, rfl⟩) (by decide) (Or.inr (by decide))
    have hbefore : "chirpCfg 0 0".toList ++ ['\n'] ++ "channelCfg 15 3\n".toList =
        s' ++ ['\n'] := by decide +kernel
    have hafter : "chirpCfg 0 0".toList ++ ['\n'] ++ "% rx".toList ++
        '\n' :: "channelCfg 15 3\n".toList = s.bare := by decide +kernel
    rw [hbefore, hafter] at hedit
    exact .rel _ _ hedit
  have hlayout : SameUpToLayout s s' :=
    .trans _ _ _ (sameUpToLayout_bare s)
      (.symm _ _ (.trans _ _ _ (.rel _ _ (.endLine s')) hcomment))
  obtain ⟨heffects, _, _, _, hread⟩ := run_same_layout hlayout (Reader.holds_bytes s)
    (show Segments.ofChunks chunks' = _ from by decide +kernel) d [.ok "Error".toList] []
  have hreturns : s.endsInReturns = true := by decide +kernel
  have hcount : (Lines.ended '\n' s).length = 3 := by decide +kernel
  have hlines := hread [.bytes (Utf8.encode s.bare)] (Reader.holds_bytes s.bare)
  rw [if_pos hreturns, hcount] at hlines
  exact ⟨hlayout, heffects, by decide +kernel, by decide +kernel, hlines⟩

end Driver

end RadarProfile
