import Mathlib.Data.List.TakeWhile
import RadarProfile.Endpoint.Serial
import RadarProfile.Proofs.Decoding
import RadarProfile.Proofs.Outcome
import RadarProfile.Proofs.Prediction
import RadarProfile.Proofs.Receipts
import RadarProfile.Proofs.Stream

set_option autoImplicit false

/-! # What reaches the sensor is framed well

A sensor takes its input line by line. So one command has to be one line, and no comment may
be taken for a command. Whatever the bytes of a profile are, what a run sends is
`WellFramed`: this is an invariant of reading, and no endpoint or store can change it. Over
a serial port, where a newline is written after each command, the device therefore receives
one line for each send, and that line is the command (`sends_wellFramed`). -/

namespace RadarProfile

/-- A text that a sensor takes for one command: it does not end a line, and its first
character that is not blank is there and begins no comment. -/
structure WellFramed (text : Text) : Prop where
  no_return : '\r' ∉ text
  no_newline : '\n' ∉ text
  spoken : ∃ blanks first rest, text = blanks ++ first :: rest ∧
    (∀ c ∈ blanks, isBlank c = true) ∧ isBlank first = false ∧ first ≠ '%'

/-! ## Lines -/

theorem Line.Kind.spoken_of_ofText {text : Text} (h : ofText text = .command) :
    ∃ blanks first rest, text = blanks ++ first :: rest ∧
      (∀ c ∈ blanks, isBlank c = true) ∧ isBlank first = false ∧ first ≠ '%' := by
  have htext : text.takeWhile isBlank ++ text.dropWhile isBlank = text :=
    List.takeWhile_append_dropWhile
  unfold ofText at h
  cases hrest : text.dropWhile isBlank with
  | nil => rw [hrest] at h; cases h
  | cons first rest =>
      rw [hrest] at htext h
      refine ⟨text.takeWhile isBlank, first, rest, htext.symm,
        fun c hc => List.mem_takeWhile_imp hc, ?_, ?_⟩
      · -- the first character that is kept is not blank
        have hne : text.dropWhile isBlank ≠ [] := by rw [hrest]; exact List.cons_ne_nil _ _
        have hfirst := List.head_dropWhile_not isBlank hne
        simpa only [hrest, List.head_cons] using hfirst
      · rintro rfl
        cases h

/-- A command that is read is well framed, whatever bytes it was made of. -/
theorem Reader.wellFramed_of_lineOf {number : Nat} {row : List UInt8}
    (h : Reader.newline ∉ row) {command : Text}
    (hspoken : (Reader.lineOf number row).command? = some command) : WellFramed command := by
  rw [Line.command?_eq] at hspoken
  split_ifs at hspoken with hkind
  obtain rfl := Option.some.inj hspoken
  refine ⟨?_, ?_, Line.Kind.spoken_of_ofText hkind⟩
  · intro hmem
    exact absurd (List.mem_filter.mp hmem).2 (by decide)
  · intro hmem
    exact Utf8.newline_not_mem_decode h (List.mem_filter.mp hmem).1

theorem Reader.mem_of_mem_untilFaults {patience : Nat} {items : List Item} {item : Item}
    (h : item ∈ untilFaults patience items) : item ∈ items := by
  induction items generalizing patience with
  | nil =>
      cases patience with
      | zero => cases h
      | succ patience => cases h
  | cons next items ih =>
      cases patience with
      | zero => cases h
      | succ patience =>
          cases next with
          | ok line =>
              rw [untilFaults, List.mem_cons] at h
              exact List.mem_cons.mpr (h.imp_right ih)
          | error fault =>
              rw [untilFaults, List.mem_cons] at h
              exact List.mem_cons.mpr (h.imp_right ih)

theorem ByteStream.wellFramed_of_mem_items {stream : ByteStream} {patience : Nat}
    {line : Line} (h : .ok line ∈ stream.items patience) {command : Text}
    (hspoken : line.command? = some command) : WellFramed command := by
  cases stream with
  | ofChunks chunks =>
      obtain ⟨number, row, hrow, rfl⟩ :=
        Reader.exists_bytes_of_mem_read (Reader.mem_of_mem_untilFaults h)
      exact Reader.wellFramed_of_lineOf hrow hspoken
  | stuck fault =>
      have hitem := List.eq_of_mem_replicate h
      cases hitem

/-! ## Sends -/

theorem mem_of_mem_commandsReached {items : List Item} {command : Text}
    (h : command ∈ commandsReached items) :
    ∃ line, .ok line ∈ items ∧ line.command? = some command := by
  induction items with
  | nil => cases h
  | cons item items ih =>
      have hrest : command ∈ commandsReached items →
          ∃ line, .ok line ∈ item :: items ∧ line.command? = some command := by
        intro hmem
        obtain ⟨line, hline, hspoken⟩ := ih hmem
        exact ⟨line, List.mem_cons_of_mem _ hline, hspoken⟩
      cases item with
      | error fault => cases h
      | ok line =>
          rw [commandsReached] at h
          cases hspoken : line.command? with
          | none =>
              rw [hspoken] at h
              exact hrest h
          | some text =>
              rw [hspoken] at h
              dsimp only at h
              cases hparameters : parametersOf text with
              | error fault =>
                  rw [hparameters] at h
                  obtain rfl := List.mem_singleton.mp h
                  exact ⟨line, List.mem_cons_self, hspoken⟩
              | ok parameters =>
                  rw [hparameters] at h
                  rcases List.mem_cons.mp h with rfl | h
                  · exact ⟨line, List.mem_cons_self, hspoken⟩
                  · exact hrest h

theorem WithRetries.mem_of_mem {dispatched sent : List Text} (h : WithRetries dispatched sent)
    {command : Text} (hmem : command ∈ sent) : command ∈ dispatched := by
  induction h with
  | nil => exact hmem
  | once _ ih =>
      rcases List.mem_cons.mp hmem with rfl | hmem
      · exact List.mem_cons_self
      · exact List.mem_cons_of_mem _ (ih hmem)
  | twice _ ih =>
      rcases List.mem_cons.mp hmem with rfl | hmem
      · exact List.mem_cons_self
      · rcases List.mem_cons.mp hmem with rfl | hmem
        · exact List.mem_cons_self
        · exact List.mem_cons_of_mem _ (ih hmem)

theorem Driver.exists_line_of_mem_sends {σ τ : Type} (d : Driver σ τ) (source : Source)
    (state : σ) (stored : τ) {text : Text}
    (h : text ∈ (d.run source state stored).chronicle.sends) :
    ∃ line, .ok line ∈ source.items ∧ line.command? = some text := by
  have hdispatched := (d.withRetries_run source state stored).mem_of_mem h
  have hreached := DryRun.dispatches_prefix_commandsReached d source state stored
  exact mem_of_mem_commandsReached (hreached.subset hdispatched)

/-! ## The serial port -/

namespace Serial

def written (commands : List Text) : List UInt8 :=
  commands.flatMap fun command => Utf8.encode (command ++ ['\n'])

/-- **A device that cuts its input at newlines finds the commands.** -/
theorem cut_written {commands : List Text} (h : ∀ command ∈ commands, '\n' ∉ command) :
    (Lines.ended Reader.newline (written commands)).map Utf8.decode = commands ∧
      Lines.rest Reader.newline (written commands) = [] := by
  have hjoin : written commands =
      Lines.join Reader.newline (commands.map Utf8.encode) ++ [] := by
    rw [written, Lines.join, List.flatMap_map, List.append_nil]
    congr 1
    funext command
    rw [Utf8.encode, List.flatMap_append]
    rfl
  obtain ⟨hended, hrest⟩ := Lines.cut_iff.mpr ⟨hjoin, fun line hline => by
    obtain ⟨command, hcommand, rfl⟩ := List.mem_map.mp hline
    exact Utf8.newline_not_mem_encode (h command hcommand), List.not_mem_nil⟩
  refine ⟨?_, hrest⟩
  rw [hended, List.map_map]
  exact (List.map_congr_left fun command _ => Utf8.decode_encode command).trans
    (List.map_id commands)

variable {deadline : Nat} {device after : Device} {command : Text}

/-! ### One send -/

theorem send_of_isGone (h : device.isGone = true) :
    (endpoint deadline).send device command = ⟨.error (.stated brokenPipe), [], device⟩ := by
  simp only [endpoint, h, if_true]

theorem received_takeLine (h : device.isGone = false) (line : Text) :
    (device.takeLine line).1.received = device.received ++ [line] := by
  simp only [Device.takeLine, h, Bool.false_eq_true, if_false]
  cases device.replies.head?.getD (.prints (acceptance line)) with
  | prints bytes => rfl
  | hangsUp => rfl

/-- A command without a newline is one line at the device. -/
theorem takeLines_linesOf (h : '\n' ∉ command) :
    device.takeLines (linesOf command) = device.takeLine command := by
  have hlines : linesOf command = [command] :=
    List.splitOnP_eq_singleton (Lines.beq_eq_false_of_not_mem h)
  simp only [hlines, Device.takeLines, List.append_nil]

/-- **A send to a device that is there** is one line for it. If it hangs up over the line,
there is no response. -/
theorem received_of_send {reply : Except DeliveryFault Text} {notes : List Note}
    (sent : (endpoint deadline).send device command = ⟨reply, notes, after⟩)
    (hpresent : device.isGone = false) (h : '\n' ∉ command) :
    after.received = device.received ++ [command] ∧
      ∀ response, reply = .ok response → after.isGone = false := by
  have hreceived := received_takeLine hpresent command
  simp only [endpoint, hpresent, takeLines_linesOf h, Bool.false_eq_true, if_false] at sent
  generalize device.takeLine command = taken at hreceived sent
  cases hgone : taken.1.isGone with
  | true =>
      simp only [hgone, if_true] at sent
      cases sent
      exact ⟨hreceived, fun _ hresponse => nomatch hresponse⟩
  | false =>
      simp only [hgone, Bool.false_eq_true, if_false] at sent
      cases hread : response (if deadline = 0 then [] else taken.2) with
      | ok text =>
          simp only [hread] at sent
          cases sent
          exact ⟨hreceived, fun _ _ => hgone⟩
      | error reason =>
          simp only [hread] at sent
          cases sent
          exact ⟨hreceived, fun _ hresponse => nomatch hresponse⟩

/-! ### A run -/

/-- A device that is there receives each command as one line. -/
theorem records (deadline : Nat) :
    (endpoint deadline).Records (fun device => device.isGone = false) ('\n' ∉ ·)
      Device.received where
  received_send hpresent hclean := (received_of_send rfl hpresent hclean).1
  listens_send hpresent hclean := (received_of_send rfl hpresent hclean).2 _

theorem isDeaf_of_isGone (deadline : Nat) (h : device.isGone = true) :
    (endpoint deadline).IsDeaf device :=
  fun _ => ⟨_, _, send_of_isGone h⟩

/-- **What a device receives in a run** is what the run sends, one line for each send. A
device that hung up before receives nothing. -/
theorem received_run {τ : Type} (deadline : Nat) (store : Store τ) (marker : Text)
    {source : Source}
    (h : ∀ line, .ok line ∈ source.items → ∀ command, line.command? = some command →
      '\n' ∉ command) (device : Device) (stored : τ) :
    let run := (Driver.mk (endpoint deadline) store marker).run source device stored
    run.endpoint.received =
      if device.isGone then device.received
      else device.received ++ run.chronicle.sends := by
  intro run
  let d := Driver.mk (endpoint deadline) store marker
  cases hgone : device.isGone with
  | true =>
      have hrun : run.endpoint = device :=
        d.endpoint_run_of_isDeaf (isDeaf_of_isGone deadline hgone) source stored
      rw [if_pos rfl, hrun]
  | false =>
      rw [if_neg Bool.false_ne_true]
      exact d.received_run (records deadline) hgone h stored

end Serial

/-! ## The invariant -/

namespace Driver

variable {σ τ : Type}

/-- **What a run sends is framed well**, whatever the bytes of the profile are, how they
arrive and what faults come between, and whatever the endpoint answers and the store does.
Written with a newline after each, the sends are cut at the newlines into the sends again.
So a device at a serial port receives the sends, each as one line, unless it hung up before
the run began. -/
theorem sends_wellFramed (d : Driver σ τ) (stream : ByteStream) (patience : Nat) (state : σ)
    (stored : τ) :
    let source : Source := ⟨stream.items patience, true⟩
    let sends := (d.run source state stored).chronicle.sends
    (∀ text ∈ sends, WellFramed text) ∧
      (Lines.ended Reader.newline (Serial.written sends)).map Utf8.decode = sends ∧
      Lines.rest Reader.newline (Serial.written sends) = [] ∧
      ∀ (deadline : Nat) (device : Serial.Device),
        let run := (Driver.mk (Serial.endpoint deadline) d.store d.marker).run source device
          stored
        run.endpoint.received =
          if device.isGone then device.received
          else device.received ++ run.chronicle.sends := by
  intro source sends
  have hlines : ∀ line, .ok line ∈ source.items → ∀ command,
      line.command? = some command → WellFramed command :=
    fun line hline command => ByteStream.wellFramed_of_mem_items hline
  have hframed : ∀ text ∈ sends, WellFramed text := by
    intro text htext
    obtain ⟨line, hline, hspoken⟩ := d.exists_line_of_mem_sends source state stored htext
    exact hlines line hline text hspoken
  obtain ⟨hended, hrest⟩ := Serial.cut_written fun text htext => (hframed text htext).no_newline
  refine ⟨hframed, hended, hrest, fun deadline device => ?_⟩
  exact Serial.received_run deadline d.store d.marker
    (fun line hline command hspoken => (hlines line hline command hspoken).no_newline)
    device stored

/-- A command with a carriage return in it and a byte that is not UTF-8 at its end, cut in two
by an interrupted read, and a comment behind a blank. The command is framed well, and a
device that asks for it twice receives it twice. -/
theorem sends_wellFramed_retried :
    let stream : ByteStream := .ofChunks [.bytes "\r sensor".toUTF8.toList,
      .failed .interrupted, .bytes ("\rStop ".toUTF8.toList ++ [0xE2, 0x0A]),
      .bytes "\t% sensorStart\n".toUTF8.toList]
    let d : Driver Serial.Device (List Parameter) :=
      ⟨Serial.endpoint 100, .keeping [], successMarker⟩
    let device : Serial.Device := ⟨[.prints [0x3F]], false, []⟩
    let command := " sensorStop \uFFFD".toList
    (d.run ⟨stream.items 1, true⟩ device []).chronicle.sends = [command, command] ∧
      WellFramed command ∧
      (d.run ⟨stream.items 1, true⟩ device []).endpoint.received = [command, command] := by
  intro stream d device command
  have hsends : (d.run ⟨stream.items 1, true⟩ device []).chronicle.sends =
      [command, command] := by decide +kernel
  obtain ⟨hframed, _, _, hreceived⟩ := sends_wellFramed d stream 1 device []
  refine ⟨hsends, hframed command (by rw [hsends]; exact List.mem_cons_self), ?_⟩
  exact (hreceived 100 device).trans hsends

end Driver

end RadarProfile
