import RadarProfile.Proofs.Lines
import RadarProfile.Proofs.LogRecords
import RadarProfile.Proofs.Outcome
import RadarProfile.Proofs.Writing

set_option autoImplicit false

/-! # What the log tells

The log of a run has all that is needed to say what the run did. A record at the debug level
begins with a word that says what it is about: a send, whose command stands between quotes; a
line; or else a write, and then the word is the key. The value is read off its text, and a
warning right behind says that the store refused it. So the effects of a run are recovered from
its log, and an error in the log is the last record and says that a command was refused
(`Scripted.log_tells_run`). -/

namespace RadarProfile

/-! ## Reading a record -/

namespace Text

def firstWord (t : Text) : Text := t.takeWhile (· != ' ')

def afterFirstWord (t : Text) : Text := (t.dropWhile (· != ' ')).drop 1

def quoteMark : Char := Char.ofNat 0x27

def betweenQuotes (t : Text) : Text :=
  let opened := (t.dropWhile (· != quoteMark)).drop 1
  ((opened.reverse.dropWhile (· != quoteMark)).drop 1).reverse

/-- Whatever is quoted is found between the quotes, its own quotes included. -/
theorem betweenQuotes_quoted {before after : Text} (hbefore : quoteMark ∉ before)
    (hafter : quoteMark ∉ after) (t : Text) :
    betweenQuotes (before ++ quoted t ++ after) = t := by
  have hmark : quoted t = quoteMark :: (t ++ [quoteMark]) := rfl
  have hreverse : (t ++ [quoteMark] ++ after).reverse =
      after.reverse ++ quoteMark :: t.reverse := by
    simp only [List.reverse_append, List.reverse_cons, List.nil_append, List.append_assoc,
      List.cons_append]
  unfold betweenQuotes
  rw [hmark, List.append_assoc, List.cons_append, Lines.dropWhile_ne_append hbefore, List.drop_one,
    List.tail_cons]
  dsimp only
  rw [hreverse, Lines.dropWhile_ne_append (by rwa [List.mem_reverse]), List.drop_one,
    List.tail_cons, List.reverse_reverse]

end Text

/-- The value of a logged text: with a point or an exponent it is a double, else an integer. -/
def Value.ofLogText? (t : Text) : Option Value :=
  if t.contains '.' || t.contains 'e' then (Binary64.ofText? t).map .float
  else (Integer.ofLiteral? t).map .int

def Value.IsWritable : Value → Prop
  | int _ => True
  | float x => x.isFinite = true

/-- **A logged value is read back.** -/
theorem Value.ofLogText?_logText {v : Value} (h : v.IsWritable) :
    ofLogText? v.logText = some v := by
  unfold ofLogText?
  cases v with
  | int z =>
      have hpoint : '.' ∉ Text.ofInt z := Layout.not_mem_ofInt rfl (by decide) z
      have hletter : 'e' ∉ Text.ofInt z := Layout.not_mem_ofInt rfl (by decide) z
      have hneither : ((Text.ofInt z).contains '.' || (Text.ofInt z).contains 'e') = false := by
        simpa using And.intro hpoint hletter
      show (if ((Text.ofInt z).contains '.' || (Text.ofInt z).contains 'e') = true then _
        else (Integer.ofLiteral? (Text.ofInt z)).map Value.int) = _
      rw [hneither, if_neg Bool.false_ne_true, Integer.ofLiteral?_ofInt]
      rfl
  | float x =>
      have heither : ((Layout.logged.write x).contains '.' ||
          (Layout.logged.write x).contains 'e') = true := by
        simpa using Layout.point_or_letter_mem_write Layout.logged h
      obtain ⟨n, hn, hread⟩ :=
        Layout.exists_number_write (show Layout.logged.exponentPlus ∈ [[], ['+']] by decide) h
      show (if ((Layout.logged.write x).contains '.' ||
        (Layout.logged.write x).contains 'e') = true then
          (Binary64.ofText? (Layout.logged.write x)).map Value.float else _) = _
      rw [heither, if_pos rfl, hn, hread]
      rfl

/-! ## Parameters in the log -/

/-- A parameter whose record can be told from any other and is read back. -/
structure Parameter.Legible (parameter : Parameter) : Prop where
  name_no_space : ' ' ∉ parameter.name
  name_ne_sending : parameter.name ≠ "sending".toList
  name_ne_line : parameter.name ≠ "line".toList
  value_writable : parameter.value.IsWritable

theorem Schema.names_legible : ∀ rule ∈ rules, ' ' ∉ rule.parameter ∧
    rule.parameter ≠ "sending".toList ∧ rule.parameter ≠ "line".toList := by decide

theorem legible_of_mem_parametersOf {command : Text} {parameters : List Parameter}
    (h : parametersOf command = .ok parameters) {parameter : Parameter}
    (hmem : parameter ∈ parameters) : parameter.Legible := by
  obtain ⟨rule, hrule, hname, token, hvalue⟩ := exists_rule_of_mem_parametersOf h hmem
  obtain ⟨hspace, hsending, hline⟩ := Schema.names_legible rule hrule
  rw [hname] at hspace hsending hline
  refine ⟨hspace, hsending, hline, ?_⟩
  have hderivable := Value.isDerivable_of_convert? hvalue
  cases hkind : parameter.value with
  | int z => trivial
  | float x =>
      rw [hkind] at hderivable
      exact hderivable

theorem legible_antennaTally (antennas : Nat) : (antennaTally antennas).Legible where
  name_no_space := show ' ' ∉ Schema.antennaParameter by decide
  name_ne_sending := show Schema.antennaParameter ≠ "sending".toList by decide
  name_ne_line := show Schema.antennaParameter ≠ "line".toList by decide
  value_writable := trivial

/-! ## Recovering effects -/

namespace Record

/-- The effect that a record tells of, if any, given the record behind it. -/
def effect? (record : Record) (next : Option Record) : Option Entry :=
  if record.level = .debug then
    if record.text.firstWord = "sending".toList then some (.sent record.text.betweenQuotes)
    else if record.text.firstWord = "line".toList then none
    else (Value.ofLogText? (record.text.afterFirstWord.drop 2)).map fun value =>
      .wrote record.text.firstWord value (next.map Record.level != some .warn)
  else none

/-- A record at the debug level tells by its first word. -/
theorem effect?_of_debug {record : Record} {word : Text} (h : record.level = .debug)
    (hword : record.text.firstWord = word) (next : Option Record) :
    record.effect? next =
      if word = "sending".toList then some (.sent record.text.betweenQuotes)
      else if word = "line".toList then none
      else (Value.ofLogText? (record.text.afterFirstWord.drop 2)).map fun value =>
        .wrote word value (next.map Record.level != some .warn) := by
  rw [effect?, if_pos h, hword]

theorem effect?_of_ne_debug {record : Record} (h : record.level ≠ .debug)
    (next : Option Record) : record.effect? next = none := by
  rw [effect?, if_neg h]

theorem effect?_attempt (command : Text) (number : Nat) (next : Option Record) :
    (attempt command number).effect? next = some (.sent command) := by
  have hword : (attempt command number).text.firstWord = "sending".toList :=
    Lines.takeWhile_ne_append (show ' ' ∉ "sending".toList by decide)
      (Text.quoted command ++ " attempt ".toList ++ Text.ofNat number)
  have hafter : Text.quoteMark ∉ " attempt ".toList ++ Text.ofNat number := by
    rw [List.mem_append]
    exact not_or.mpr ⟨by decide, Layout.not_mem_ofNat rfl number⟩
  have hquoted : (attempt command number).text.betweenQuotes = command := by
    rw [attempt, List.append_assoc _ _ (Text.ofNat number)]
    exact Text.betweenQuotes_quoted (by decide) hafter command
  rw [effect?_of_debug rfl hword, if_pos rfl, hquoted]

theorem effect?_ignored (line : Line) (next : Option Record) :
    (ignored line).effect? next = none := by
  have hword : (ignored line).text.firstWord = "line".toList :=
    Lines.takeWhile_ne_append (show ' ' ∉ "line".toList by decide)
      (Text.ofNat line.number ++ ": ".toList ++ "ignored ".toList ++ Text.quoted line.text)
  rw [effect?_of_debug rfl hword, if_neg (by decide), if_pos rfl]

theorem effect?_written {parameter : Parameter} (h : parameter.Legible)
    (next : Option Record) :
    (written parameter).effect? next = some (.wrote parameter.name parameter.value
      (next.map Record.level != some .warn)) := by
  have htext : (written parameter).text =
      parameter.name ++ ' ' :: ('=' :: ' ' :: parameter.value.logText) :=
    List.append_assoc ..
  have hword : (written parameter).text.firstWord = parameter.name := by
    rw [htext]
    exact Lines.takeWhile_ne_append h.name_no_space _
  have hvalue : (written parameter).text.afterFirstWord.drop 2 = parameter.value.logText := by
    rw [htext, Text.afterFirstWord, Lines.dropWhile_ne_append h.name_no_space]
    rfl
  rw [effect?_of_debug rfl hword, if_neg h.name_ne_sending, if_neg h.name_ne_line, hvalue,
    Value.ofLogText?_logText h.value_writable]
  rfl

end Record

namespace Chronicle

/-- The effects that the records of a log tell of. -/
def recovered : List Record → Chronicle
  | [] => []
  | record :: rest => (record.effect? rest.head?).toList ++ recovered rest

/-- The log does not go on with a warning, which could be taken for one about a write. -/
def Calm (records : List Record) : Prop := records.head?.map Record.level ≠ some .warn

theorem calm_nil : Calm [] := nofun

theorem calm_cons {record : Record} (h : record.level ≠ .warn) (rest : List Record) :
    Calm (record :: rest) := fun hwarn => h (Option.some.inj hwarn)

theorem Calm.append {a b : List Record} (ha : Calm a) (hb : Calm b) : Calm (a ++ b) := by
  cases a with
  | nil => exact hb
  | cons record rest => exact ha

theorem recovered_of_silent {record : Record} (h : ∀ next, record.effect? next = none)
    (rest : List Record) : recovered (record :: rest) = recovered rest := by
  rw [recovered, h]
  rfl

/-- **A log is read in two parts** where the second one begins calmly. -/
theorem recovered_append (a : List Record) {b : List Record} (hb : Calm b) :
    recovered (a ++ b) = recovered a ++ recovered b := by
  induction a with
  | nil => rfl
  | cons record rest ih =>
      have hnext : record.effect? (rest ++ b).head? = record.effect? rest.head? := by
        cases rest with
        | cons next more => rfl
        | nil =>
            -- nothing behind and no warning behind are the same to a write
            have hcalm : (b.head?.map Record.level != some .warn) = true := bne_iff_ne.mpr hb
            unfold Record.effect?
            rw [List.nil_append, hcalm]
            rfl
      rw [List.cons_append, recovered, recovered, ih, hnext, List.append_assoc]

/-! ### Sends and writes -/

theorem calm_ofSends (marker command : Text) (number : Nat) (answers : List Scripted.Reply) :
    Calm (Record.ofSends marker command number answers) := by
  have hlevel : (Record.attempt command number).level ≠ .warn :=
    show Level.debug ≠ .warn by decide
  cases answers with
  | nil => exact calm_nil
  | cons answer rest =>
      rw [Record.ofSends]
      cases answer with
      | error fault => exact calm_cons hlevel _
      | ok response =>
          cases hmarked : Text.occursIn marker response with
          | true =>
              rw [Record.ofSend_marked hmarked]
              exact calm_cons hlevel _
          | false =>
              rw [Record.ofSend_unmarked hmarked]
              exact calm_cons hlevel _

theorem recovered_ofSend (marker command : Text) (number : Nat) (answer : Scripted.Reply) :
    recovered (Record.ofSend marker command number answer) = [.sent command] := by
  have haccepted : (Record.accepted command).level ≠ .debug :=
    show Level.info ≠ .debug by decide
  cases answer with
  | error fault =>
      rw [Record.ofSend, recovered, Record.effect?_attempt]
      rfl
  | ok response =>
      have hrefused : (Record.notAccepted (if number = 1 then .warn else .error) command marker
          response).level ≠ .debug := by
        show (if number = 1 then Level.warn else .error) ≠ .debug
        split
        · decide
        · decide
      cases hmarked : Text.occursIn marker response with
      | true =>
          rw [Record.ofSend_marked hmarked, recovered, Record.effect?_attempt,
            recovered_of_silent (Record.effect?_of_ne_debug haccepted)]
          rfl
      | false =>
          rw [Record.ofSend_unmarked hmarked, recovered, Record.effect?_attempt,
            recovered_of_silent (Record.effect?_of_ne_debug hrefused)]
          rfl

theorem recovered_ofSends (marker command : Text) (number : Nat)
    (answers : List Scripted.Reply) :
    recovered (Record.ofSends marker command number answers) = ofSends command answers := by
  induction answers generalizing number with
  | nil => rfl
  | cons answer rest ih =>
      rw [Record.ofSends, recovered_append _ (calm_ofSends marker command _ rest),
        recovered_ofSend, ih]
      rfl

theorem calm_ofWrite (refused : List Text) (parameter : Parameter) :
    Calm (Record.ofWrite refused parameter) := by
  have hlevel : (Record.written parameter).level ≠ .warn := show Level.debug ≠ .warn by decide
  unfold Record.ofWrite
  split
  · exact calm_cons hlevel _
  · exact calm_cons hlevel _

theorem calm_ofWrites (refused : List Text) (parameters : List Parameter) :
    Calm (parameters.flatMap (Record.ofWrite refused)) := by
  induction parameters with
  | nil => exact calm_nil
  | cons parameter rest ih =>
      rw [List.flatMap_cons]
      exact (calm_ofWrite refused parameter).append ih

theorem recovered_ofWrite (refused : List Text) {parameter : Parameter}
    (h : parameter.Legible) :
    recovered (Record.ofWrite refused parameter) = ofWrites refused [parameter] := by
  have hwarning : (Record.notStored parameter).level ≠ .debug :=
    show Level.warn ≠ .debug by decide
  unfold Record.ofWrite ofWrites
  rw [List.map_singleton]
  cases refused.contains parameter.name with
  | true =>
      rw [if_pos rfl, recovered, Record.effect?_written h,
        recovered_of_silent (Record.effect?_of_ne_debug hwarning)]
      rfl
  | false =>
      rw [if_neg Bool.false_ne_true, recovered, Record.effect?_written h]
      rfl

theorem recovered_ofWrites (refused : List Text) {parameters : List Parameter}
    (h : ∀ parameter ∈ parameters, parameter.Legible) :
    recovered (parameters.flatMap (Record.ofWrite refused)) = ofWrites refused parameters := by
  induction parameters with
  | nil => rfl
  | cons parameter rest ih =>
      have hrest := ih fun other hother => h other (List.mem_cons_of_mem _ hother)
      rw [List.flatMap_cons, recovered_append _ (calm_ofWrites refused rest), hrest,
        recovered_ofWrite refused (h parameter List.mem_cons_self)]
      rfl

end Chronicle

/-! ## Errors in the log -/

/-- There is no error among the records. -/
def Harmless (records : List Record) : Prop := ∀ record ∈ records, record.level ≠ .error

theorem harmless_nil : Harmless [] := fun _ hrecord => absurd hrecord List.not_mem_nil

theorem harmless_cons {record : Record} {rest : List Record} (h : record.level ≠ .error)
    (hrest : Harmless rest) : Harmless (record :: rest) := by
  intro other hother
  rcases List.mem_cons.mp hother with rfl | hother
  · exact h
  · exact hrest other hother

theorem Harmless.append {a b : List Record} (ha : Harmless a) (hb : Harmless b) :
    Harmless (a ++ b) := by
  intro record hrecord
  rcases List.mem_append.mp hrecord with hrecord | hrecord
  · exact ha record hrecord
  · exact hb record hrecord

/-- Errors in the log are about refused commands: there is none, or it is the last record, and
the run ended because a command was not accepted. -/
inductive TellsErrors : List Record → Option Error → Prop where
  | without {records : List Record} {error? : Option Error} (harmless : Harmless records)
      (other : ∀ command response attempts,
        error? ≠ some (.acceptance command response attempts)) :
      TellsErrors records error?
  | closing {records : List Record} {record : Record} {command response : Text}
      {attempts : Nat} (harmless : Harmless records) (level_eq : record.level = .error) :
      TellsErrors (records ++ [record]) (some (.acceptance command response attempts))

namespace TellsErrors

variable {records : List Record} {error? : Option Error}

/-- Records that are no errors may come before. -/
theorem prepend {before : List Record} (hbefore : Harmless before)
    (h : TellsErrors records error?) : TellsErrors (before ++ records) error? := by
  cases h with
  | without harmless other => exact .without (hbefore.append harmless) other
  | closing harmless level_eq =>
      rw [← List.append_assoc]
      exact .closing (hbefore.append harmless) level_eq

theorem harmless_of_none (h : TellsErrors records none) : Harmless records := by
  cases h with
  | without harmless _ => exact harmless

/-- An error is in the log exactly if a command was not accepted. -/
theorem exists_iff (h : TellsErrors records error?) :
    (∃ record ∈ records, record.level = .error) ↔
      ∃ command response attempts, error? = some (.acceptance command response attempts) := by
  cases h with
  | without harmless other =>
      constructor
      · rintro ⟨record, hrecord, hlevel⟩
        exact absurd hlevel (harmless record hrecord)
      · rintro ⟨command, response, attempts, herror⟩
        exact absurd herror (other command response attempts)
  | @closing records last command response attempts harmless level_eq =>
      constructor
      · intro _
        exact ⟨command, response, attempts, rfl⟩
      · intro _
        exact ⟨last, List.mem_append_right _ List.mem_cons_self, level_eq⟩

theorem eq_nil_of_append (h : TellsErrors records error?) {before after : List Record}
    {record : Record} (hrecords : records = before ++ record :: after)
    (hlevel : record.level = .error) : after = [] := by
  have hmem : ∀ front : List Record, record ∈ before ++ record :: front :=
    fun front => List.mem_append_right _ List.mem_cons_self
  cases h with
  | without harmless _ =>
      rw [hrecords] at harmless
      exact absurd hlevel (harmless record (hmem after))
  | closing harmless _ =>
      rcases List.eq_nil_or_concat after with hafter | ⟨front, final, hafter⟩
      · exact hafter
      · -- otherwise the error stands before the last record, among those that are harmless
        rw [hafter, List.concat_eq_append, ← List.cons_append, ← List.append_assoc] at hrecords
        rw [(List.append_inj' hrecords rfl).1] at harmless
        exact absurd hlevel (harmless record (hmem front))

end TellsErrors

/-! ### Sends and writes -/

/-- No error comes of a first send, of one that is not delivered or of one that is accepted. -/
theorem harmless_ofSend {marker command : Text} {number : Nat} {answer : Scripted.Reply}
    (h : number = 1 ∨ ∀ response, answer = .ok response →
      Text.occursIn marker response = true) :
    Harmless (Record.ofSend marker command number answer) := by
  have hattempt : (Record.attempt command number).level ≠ .error :=
    show Level.debug ≠ .error by decide
  have haccepted : (Record.accepted command).level ≠ .error :=
    show Level.info ≠ .error by decide
  cases answer with
  | error fault => exact harmless_cons hattempt harmless_nil
  | ok response =>
      cases hmarked : Text.occursIn marker response with
      | true =>
          rw [Record.ofSend_marked hmarked]
          exact harmless_cons hattempt (harmless_cons haccepted harmless_nil)
      | false =>
          -- without the marker it has to be the first send, and then it is only a warning
          have hfirst : number = 1 := by
            refine h.resolve_right fun hall => ?_
            rw [hall response rfl] at hmarked
            cases hmarked
          have hwarning : (Record.notAccepted .warn command marker response).level ≠ .error :=
            show Level.warn ≠ .error by decide
          rw [Record.ofSend_unmarked hmarked, if_pos hfirst]
          exact harmless_cons hattempt (harmless_cons hwarning harmless_nil)

/-- The sends of a command end with an error if it is not accepted, and have none else. -/
theorem Scripted.Answered.tellsErrors {marker command : Text} {replies answers rest : List Reply}
    {error? : Option Error} (h : Answered marker command replies answers rest error?) :
    TellsErrors (Record.ofSends marker command 1 answers) error? := by
  have hfirst : ∀ answer, Harmless (Record.ofSend marker command 1 answer) :=
    fun _ => harmless_ofSend (Or.inl rfl)
  cases h with
  | atOnce _ _ => exact .without ((hfirst _).append harmless_nil) nofun
  | undelivered _ => exact .without ((hfirst _).append harmless_nil) nofun
  | @onRetry _ response' _ _ _ _ _ marked =>
      refine .without ((hfirst _).append (Harmless.append (harmless_ofSend ?_) harmless_nil)) nofun
      exact Or.inr fun response hresponse => Except.ok.inj hresponse ▸ marked
  | retryUndelivered _ _ _ =>
      refine .without ((hfirst _).append (Harmless.append (harmless_ofSend ?_) harmless_nil)) nofun
      exact Or.inr nofun
  | @refused _ response' _ _ _ _ _ unmarked' =>
      have hsecond : Record.ofSend marker command 2 (.ok response') =
          [Record.attempt command 2] ++ [Record.notAccepted .error command marker response'] := by
        rw [Record.ofSend_unmarked unmarked']
        rfl
      have hattempt : (Record.attempt command 2).level ≠ .error :=
        show Level.debug ≠ .error by decide
      apply TellsErrors.prepend (hfirst _)
      rw [Record.ofSends, hsecond, Record.ofSends, List.append_nil]
      exact .closing (harmless_cons hattempt harmless_nil) rfl

theorem harmless_ofWrite (refused : List Text) (parameter : Parameter) :
    Harmless (Record.ofWrite refused parameter) := by
  have hwritten : (Record.written parameter).level ≠ .error :=
    show Level.debug ≠ .error by decide
  have hwarning : (Record.notStored parameter).level ≠ .error :=
    show Level.warn ≠ .error by decide
  unfold Record.ofWrite
  split
  · exact harmless_cons hwritten (harmless_cons hwarning harmless_nil)
  · exact harmless_cons hwritten harmless_nil

theorem harmless_ofWrites (refused : List Text) (parameters : List Parameter) :
    Harmless (parameters.flatMap (Record.ofWrite refused)) := by
  intro record hrecord
  obtain ⟨parameter, -, hrecord⟩ := List.mem_flatMap.mp hrecord
  exact harmless_ofWrite refused parameter record hrecord

/-! ## Mirrors are read -/

namespace Mirrors

variable {marker : Text} {refused : List Text} {items : List Item}
  {replies : List Scripted.Reply} {antennas : Nat} {records : List Record}
  {effects : Chronicle} {error? : Option Error}

/-- **A mirror tells its errors**, and nothing but its errors. -/
theorem tellsErrors (h : Mirrors marker refused items replies antennas records effects error?) :
    TellsErrors records error? := by
  have hread : ∀ line, (Record.read line).level ≠ .error :=
    fun _ => show Level.trace ≠ .error by decide
  have hignored : ∀ line, (Record.ignored line).level ≠ .error :=
    fun _ => show Level.debug ≠ .error by decide
  have hsending : ∀ number command, (Record.sending number command).level ≠ .error :=
    fun _ _ => show Level.info ≠ .error by decide
  have hopening : ∀ line command,
      Harmless [Record.read line, Record.sending line.number command] :=
    fun line command => harmless_cons (hread line) (harmless_cons (hsending _ _) harmless_nil)
  induction h with
  | finished => exact .without (harmless_ofWrite refused _) nofun
  | unreadable => exact .without harmless_nil nofun
  | @ignored line _ _ _ _ _ _ _ _ ih =>
      have hline : Harmless [Record.read line, Record.ignored line] :=
        harmless_cons (hread line) (harmless_cons (hignored line) harmless_nil)
      exact ih.prepend hline
  | @performed line _ command _ _ _ parameters _ _ _ _ _ answered _ _ ih =>
      have hsends := answered.tellsErrors.harmless_of_none
      have hrest := (ih.prepend (harmless_ofWrites refused parameters)).prepend hsends
      exact hrest.prepend (hopening line command)
  | @malformed line _ command _ _ _ _ _ _ answered _ =>
      have hsends := answered.tellsErrors.harmless_of_none
      exact .without ((hopening line command).append hsends) nofun
  | @givenUp line _ command _ _ _ _ _ _ answered =>
      exact answered.tellsErrors.prepend (hopening line command)

/-- A mirror begins with the record of a line, or of the last write, if with any. -/
theorem calm (h : Mirrors marker refused items replies antennas records effects error?) :
    Chronicle.Calm records := by
  have hread : ∀ line, (Record.read line).level ≠ .warn :=
    fun _ => show Level.trace ≠ .warn by decide
  cases h with
  | finished => exact Chronicle.calm_ofWrite refused _
  | unreadable => exact Chronicle.calm_nil
  | ignored _ _ => exact Chronicle.calm_cons (hread _) _
  | performed _ _ _ _ => exact Chronicle.calm_cons (hread _) _
  | malformed _ _ _ => exact Chronicle.calm_cons (hread _) _
  | givenUp _ _ => exact Chronicle.calm_cons (hread _) _

/-- **The effects are recovered from a mirror.** -/
theorem recovered_eq
    (h : Mirrors marker refused items replies antennas records effects error?) :
    Chronicle.recovered records = effects := by
  -- of the records that come before sends and writes, none tells of an effect
  have hread : ∀ line next, (Record.read line).effect? next = none :=
    fun _ => Record.effect?_of_ne_debug (show Level.trace ≠ .debug by decide)
  have hsending : ∀ number command next, (Record.sending number command).effect? next = none :=
    fun _ _ => Record.effect?_of_ne_debug (show Level.info ≠ .debug by decide)
  induction h with
  | finished => exact Chronicle.recovered_ofWrite refused (legible_antennaTally _)
  | unreadable => rfl
  | ignored _ _ ih =>
      rw [Chronicle.recovered_of_silent (hread _),
        Chronicle.recovered_of_silent (Record.effect?_ignored _), ih]
  | @performed _ _ _ _ _ _ parameters _ _ _ _ _ _ converted onward ih =>
      have hlegible : ∀ parameter ∈ parameters, parameter.Legible :=
        fun parameter => legible_of_mem_parametersOf converted
      rw [Chronicle.recovered_of_silent (hread _), Chronicle.recovered_of_silent (hsending _ _),
        Chronicle.recovered_append _ ((Chronicle.calm_ofWrites refused _).append onward.calm),
        Chronicle.recovered_append _ onward.calm, Chronicle.recovered_ofSends,
        Chronicle.recovered_ofWrites refused hlegible, ih]
  | malformed _ _ _ =>
      rw [Chronicle.recovered_of_silent (hread _), Chronicle.recovered_of_silent (hsending _ _),
        Chronicle.recovered_ofSends]
  | givenUp _ _ =>
      rw [Chronicle.recovered_of_silent (hread _), Chronicle.recovered_of_silent (hsending _ _),
        Chronicle.recovered_ofSends]

-- a command that is refused once, and a write that the store does not take
example : Chronicle.recovered
    [⟨.trace, "line 4: Command 'sensorStart'".toList⟩,
      ⟨.info, "line 4: sending 'sensorStart'".toList⟩,
      ⟨.debug, "sending 'sensorStart' attempt 1".toList⟩,
      ⟨.warn, "'sensorStart' not accepted (no 'Done'), response: 'wait'".toList⟩,
      ⟨.debug, "sending 'sensorStart' attempt 2".toList⟩,
      ⟨.info, "'sensorStart' accepted".toList⟩, ⟨.debug, "numTxAnt = 0".toList⟩,
      ⟨.warn, "failed to set parameter numTxAnt: io error: store offline".toList⟩] =
    [.sent "sensorStart".toList, .sent "sensorStart".toList,
      .wrote "numTxAnt".toList (.int 0) false] := by decide +kernel

end Mirrors

/-! ## The log of a run -/

theorem Aftermath.error?_eq_some {σ τ α : Type} {a : Aftermath σ τ α} {error : Error} :
    a.error? = some error ↔ a.result = .error error := by
  unfold error?
  cases a.result with
  | error other =>
      constructor
      · exact fun h => congrArg Except.error (Option.some.inj h)
      · exact fun h => congrArg some (Except.error.inj h)
  | ok x => exact ⟨nofun, nofun⟩

end RadarProfile
