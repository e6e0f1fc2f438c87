import RadarProfile.Endpoint.Serial
import RadarProfile.Proofs.Answers
import RadarProfile.Proofs.Decoding
import RadarProfile.Proofs.Dispatch

set_option autoImplicit false

/-! # Responses over a serial port

The bytes of a response come in reads of any size, with reads between them that time out. The
prompt is looked for in the text of all bytes so far, so neither it nor a character can be lost
where the bytes are cut: the response is known by the bytes that were delivered
(`Delivers.receive_append`, `Delivers.receive_of_endsOnce`). A `Port` is whatever a command is
written to and reads come from, each with the time that it takes; the endpoint that the programs
use is the one over the port of a device (`port_endpoint`). What a send over any port comes to
follows (`Port.send_as_delivered`). -/

namespace RadarProfile.Serial

/-! ## Time -/

/-- The answer of a port to one read, and the milliseconds that the read takes. -/
structure Arrival where
  read : PortRead
  time : Nat
deriving DecidableEq

/-- The reads that are begun while there is time left, one after the other. -/
def begun : Nat → List Arrival → List PortRead
  | _, [] => []
  | left, arrival :: rest =>
    if left = 0 then [] else arrival.read :: begun (left - arrival.time) rest

/-! ## Reading -/

structure Received where
  answer : Except Text Text
  unread : List PortRead

/-- Reads on until the prompt is there, given the bytes read before. -/
def receiveAfter (bytes : List UInt8) : List PortRead → Received
  | [] => ⟨.ok (Utf8.decode bytes), []⟩
  | .timedOut :: rest => receiveAfter bytes rest
  | .failed reason :: rest => ⟨.error reason, rest⟩
  | .bytes [] :: rest => ⟨.ok (Utf8.decode bytes), rest⟩
  | .bytes (b :: more) :: rest =>
    let all := bytes ++ b :: more
    if Text.occursIn prompt (Utf8.decode all) then ⟨.ok (Utf8.decode all), rest⟩
    else receiveAfter all rest

def receive (reads : List PortRead) : Received := receiveAfter [] reads

theorem answer_receiveAfter (bytes : List UInt8) (reads : List PortRead) :
    (receiveAfter bytes reads).answer = responseAfter bytes reads := by
  fun_induction receiveAfter bytes reads with
  | case1 => rfl
  | case2 bytes rest ih => exact ih
  | case3 => rfl
  | case4 => rfl
  | case5 bytes b more rest all hprompt => rw [responseAfter, if_pos hprompt]
  | case6 bytes b more rest all hprompt ih => rw [responseAfter, if_neg hprompt, ih]

theorem answer_receive (reads : List PortRead) : (receive reads).answer = response reads :=
  answer_receiveAfter [] reads

/-! ## Delivery -/

def idle (reads : Nat) : List PortRead := List.replicate reads .timedOut

/-- `Delivers reads bytes`: the reads bring the bytes, in parts that are not empty and not longer
than a read can be, after any number of reads each that time out. -/
inductive Delivers : List PortRead → List UInt8 → Prop where
  | nil : Delivers [] []
  | snoc {reads : List PortRead} {bytes part : List UInt8} (h : Delivers reads bytes)
      (waits : Nat) (nonempty : part ≠ []) (short : part.length ≤ readSize) :
      Delivers (reads ++ (idle waits ++ [.bytes part])) (bytes ++ part)

def promptBytes : List UInt8 := Utf8.encode prompt

/-- The part is at the end of the whole, and nowhere else in it. -/
def EndsOnce (part whole : List UInt8) : Prop :=
  part <:+ whole ∧ ∀ before after, whole = before ++ (part ++ after) → after = []

theorem endsOnce_of_dropLast {part whole : List UInt8} (hend : part <:+ whole)
    (h : ¬ part <:+: whole.dropLast) : EndsOnce part whole := by
  refine ⟨hend, fun before after hwhole => ?_⟩
  by_contra hafter
  apply h
  rw [hwhole, List.dropLast_append_of_ne_nil (List.append_ne_nil_of_right_ne_nil _ hafter),
    List.dropLast_append_of_ne_nil hafter, ← List.append_assoc]
  exact List.infix_append before part after.dropLast

/-- **The prompt is in the text exactly if its bytes are among the bytes.** -/
theorem prompt_infix_iff (bytes : List UInt8) :
    prompt <:+: Utf8.decode bytes ↔ promptBytes <:+: bytes :=
  Utf8.infix_decode_iff (by decide)

theorem receiveAfter_idle (bytes : List UInt8) (waits : Nat) (more : List PortRead) :
    receiveAfter bytes (idle waits ++ more) = receiveAfter bytes more := by
  induction waits with
  | zero => rfl
  | succ waits ih => exact ih

/-- Bytes that do not bring the prompt are kept, and reading goes on. -/
theorem receiveAfter_bytes_of_not {bytes part : List UInt8} (nonempty : part ≠ [])
    (h : ¬ promptBytes <:+: bytes ++ part) (more : List PortRead) :
    receiveAfter bytes (.bytes part :: more) = receiveAfter (bytes ++ part) more := by
  obtain ⟨b, part, rfl⟩ := List.exists_cons_of_ne_nil nonempty
  rw [← prompt_infix_iff, ← Text.occursIn_iff] at h
  rw [receiveAfter, if_neg h]

/-- Bytes that bring the prompt are the last ones. -/
theorem receiveAfter_bytes_of_prompt {bytes part : List UInt8} (nonempty : part ≠ [])
    (h : promptBytes <:+: bytes ++ part) (more : List PortRead) :
    receiveAfter bytes (.bytes part :: more) = ⟨.ok (Utf8.decode (bytes ++ part)), more⟩ := by
  obtain ⟨b, part, rfl⟩ := List.exists_cons_of_ne_nil nonempty
  rw [← prompt_infix_iff, ← Text.occursIn_iff] at h
  rw [receiveAfter, if_pos h]

namespace Delivers

variable {reads : List PortRead} {bytes : List UInt8}

/-- **Reading goes on while the prompt has not come**, and all that is known of the reads is the
bytes that they brought. -/
theorem receive_append (h : Delivers reads bytes) (hsilent : ¬ promptBytes <:+: bytes)
    (more : List PortRead) : receive (reads ++ more) = receiveAfter bytes more := by
  induction h generalizing more with
  | nil => rfl
  | @snoc reads bytes part _ waits nonempty _ ih =>
      have hbefore : ¬ promptBytes <:+: bytes := fun hprompt =>
        hsilent (hprompt.trans (List.prefix_append bytes part).isInfix)
      rw [List.append_assoc, List.append_assoc, ih hbefore, receiveAfter_idle,
        List.singleton_append, receiveAfter_bytes_of_not nonempty hsilent]

/-- Bytes that end with the prompt, and have it nowhere else, are all that is read. -/
theorem receive_of_endsOnce (h : Delivers reads bytes) (hprompt : EndsOnce promptBytes bytes)
    (more : List PortRead) : receive (reads ++ more) = ⟨.ok (Utf8.decode bytes), more⟩ := by
  obtain ⟨hend, honce⟩ := hprompt
  cases h with
  | nil => exact absurd (List.suffix_nil.mp hend) (by decide)
  | @snoc reads bytes part h waits nonempty _ =>
      -- before the last part the prompt is not complete
      have hbefore : ¬ promptBytes <:+: bytes := by
        rintro ⟨before, after, rfl⟩
        have hafter := honce before (after ++ part) (by simp only [List.append_assoc])
        exact nonempty (List.append_eq_nil_iff.mp hafter).2
      rw [List.append_assoc, List.append_assoc, h.receive_append hbefore, receiveAfter_idle,
        List.singleton_append, receiveAfter_bytes_of_prompt nonempty hend.isInfix]

end Delivers

/-! ## Ports -/

/-- Something that commands are written to: a write leaves it in a new state, and fails or is
followed by reads. -/
structure Port (σ : Type) where
  write : σ → Text → σ × Except Text (List Arrival)

namespace Port

variable {σ : Type}

/-- The endpoint over a port, with the time in milliseconds after which no read is begun. -/
def endpoint (port : Port σ) (deadline : Nat) : Endpoint σ where
  send state command :=
    match port.write state command with
    | (next, .error reason) => ⟨.error (.stated reason), [], next⟩
    | (next, .ok arrivals) =>
      match (receive (begun deadline arrivals)).answer with
      | .ok text => ⟨.ok text, [.portReplied text], next⟩
      | .error reason => ⟨.error (.stated reason), [], next⟩
  awaitReady _ _ := .atOnce

end Port

def Device.port : Port Device where
  write device command :=
    if device.isGone then (device, .error brokenPipe)
    else
      let (next, printed) := device.takeLines (linesOf command)
      if next.isGone then (next, .error brokenPipe)
      else (next, .ok (printed.map fun read => ⟨read, 0⟩))

theorem begun_at_once (deadline : Nat) (reads : List PortRead) :
    begun deadline (reads.map fun read => ⟨read, 0⟩) = if deadline = 0 then [] else reads := by
  induction reads with
  | nil => simp [begun]
  | cons read reads ih =>
      rw [List.map_cons, begun, Nat.sub_zero, ih]
      split_ifs with hnone
      · rfl
      · rfl

/-- **The endpoint of the programs is the one over the port of a device.** -/
theorem port_endpoint (deadline : Nat) : Device.port.endpoint deadline = endpoint deadline := by
  have hsend : (Device.port.endpoint deadline).send = (endpoint deadline).send := by
    funext device command
    simp only [Port.endpoint, Device.port, endpoint]
    cases device.isGone with
    | true => rfl
    | false =>
        simp only [Bool.false_eq_true, if_false]
        generalize device.takeLines (linesOf command) = taken
        cases hgone : taken.1.isGone with
        | true => simp only [if_true]
        | false =>
            cases hresponse : response (if deadline = 0 then [] else taken.2) with
            | ok text =>
                simp only [Bool.false_eq_true, if_false, begun_at_once, answer_receive, hresponse]
            | error reason =>
                simp only [Bool.false_eq_true, if_false, begun_at_once, answer_receive, hresponse]
  exact congrArg (fun send => Endpoint.mk send fun _ _ => .atOnce) hsend

theorem response_bytes (bytes : List UInt8) :
    response [.bytes bytes] = .ok (Utf8.decode bytes) := by
  cases bytes with
  | nil => rfl
  | cons b more =>
      rw [response, responseAfter, List.nil_append]
      split_ifs
      · rfl
      · rfl

namespace Port

variable {σ : Type} (port : Port σ) {state next : σ} {command : Text} {arrivals : List Arrival}

theorem send_of_ok (written : port.write state command = (next, .ok arrivals)) {deadline : Nat}
    {text : Text} (h : (receive (begun deadline arrivals)).answer = .ok text) :
    (port.endpoint deadline).send state command = ⟨.ok text, [.portReplied text], next⟩ := by
  simp only [endpoint, written, h]

theorem send_of_error (written : port.write state command = (next, .ok arrivals))
    {deadline : Nat} {reason : Text}
    (h : (receive (begun deadline arrivals)).answer = .error reason) :
    (port.endpoint deadline).send state command = ⟨.error (.stated reason), [], next⟩ := by
  simp only [endpoint, written, h]

/-- A fault of the port ends a dispatch with its first send. -/
theorem dispatch_of_error (written : port.write state command = (next, .ok arrivals))
    {deadline : Nat} {reason : Text}
    (h : (receive (begun deadline arrivals)).answer = .error reason) (marker : Text) :
    let dispatched := (port.endpoint deadline).dispatch marker command state
    dispatched.result = .error (.delivery command (.stated reason)) ∧
      dispatched.chronicle.sends = [command] := by
  intro dispatched
  have hdispatched : dispatched = ⟨.error (.delivery command (.stated reason)), next,
      Endpoint.opening command 1 []⟩ :=
    Endpoint.deliver_undelivered 1 (attemptLimit - 1) (port.send_of_error written h)
  rw [hdispatched, Chronicle.sends_eq_deeds, Endpoint.deeds_opening]
  exact ⟨rfl, rfl⟩

/-- **A response is what was delivered**, however the bytes arrive. They come in any parts that
reads can take, with reads between them that time out, and what counts is which reads are begun
before the deadline. If the prompt ends the bytes and is nowhere else in them, the text of all
bytes is the response and no further read is made. If the prompt is not among the bytes, all
reads up to the deadline are made, and the text of what they brought is the response. A read
that fails before the prompt came is the fault of the send, which is not repeated and has no
response. The prompt is in the text of any bytes exactly if it is among the bytes, and the text
is the one that the bytes would give in one piece. The endpoint of a device is of this kind. -/
theorem send_as_delivered (written : port.write state command = (next, .ok arrivals))
    {reads : List PortRead} {bytes : List UInt8} (h : Delivers reads bytes) (deadline : Nat) :
    let heard := receive (begun deadline arrivals)
    let sent := (port.endpoint deadline).send state command
    let whole : Sent σ := ⟨.ok (Utf8.decode bytes), [.portReplied (Utf8.decode bytes)], next⟩
    (∀ more, begun deadline arrivals = reads ++ more → EndsOnce promptBytes bytes →
      heard.unread = more ∧ sent = whole) ∧
    (∀ waits, begun deadline arrivals = reads ++ idle waits → ¬ promptBytes <:+: bytes →
      heard.unread = [] ∧ sent = whole) ∧
    (∀ waits reason more,
      begun deadline arrivals = reads ++ (idle waits ++ .failed reason :: more) →
      ¬ promptBytes <:+: bytes →
        heard.unread = more ∧ sent = ⟨.error (.stated reason), [], next⟩ ∧ ∀ marker,
          let dispatched := (port.endpoint deadline).dispatch marker command state
          dispatched.result = .error (.delivery command (.stated reason)) ∧
            dispatched.chronicle.sends = [command]) ∧
    (prompt <:+: Utf8.decode bytes ↔ promptBytes <:+: bytes) ∧
    response [.bytes bytes] = .ok (Utf8.decode bytes) ∧
    Device.port.endpoint deadline = Serial.endpoint deadline := by
  intro heard sent whole
  refine ⟨?_, ?_, ?_, prompt_infix_iff bytes, response_bytes bytes, port_endpoint deadline⟩
  · intro more hbegun hprompt
    have hheard : heard = ⟨.ok (Utf8.decode bytes), more⟩ := by
      rw [show heard = receive (reads ++ more) from congrArg receive hbegun,
        h.receive_of_endsOnce hprompt]
    exact ⟨congrArg Received.unread hheard,
      port.send_of_ok written (congrArg Received.answer hheard)⟩
  · intro waits hbegun hsilent
    have hheard : heard = ⟨.ok (Utf8.decode bytes), []⟩ := by
      have hidle := receiveAfter_idle bytes waits []
      rw [List.append_nil] at hidle
      rw [show heard = receive (reads ++ idle waits) from congrArg receive hbegun,
        h.receive_append hsilent, hidle, receiveAfter]
    exact ⟨congrArg Received.unread hheard,
      port.send_of_ok written (congrArg Received.answer hheard)⟩
  · intro waits reason more hbegun hsilent
    have hheard : heard = ⟨.error reason, more⟩ := by
      rw [show heard = receive (reads ++ (idle waits ++ .failed reason :: more)) from
        congrArg receive hbegun, h.receive_append hsilent, receiveAfter_idle, receiveAfter]
    have hanswer : heard.answer = .error reason := congrArg Received.answer hheard
    exact ⟨congrArg Received.unread hheard, port.send_of_error written hanswer,
      port.dispatch_of_error written hanswer⟩

/-- A character of two bytes is cut in two, and so is the prompt, behind a byte that is no UTF-8
and with a read between its halves that times out. The response is the whole text, and the read
that would fail is not made. -/
theorem send_as_delivered_in_parts :
    let reads : List PortRead := [.timedOut, .bytes [0xC3],
      .bytes ([0xA9, 0xFF] ++ Utf8.encode "mmwD".toList), .timedOut,
      .bytes (Utf8.encode "emo:/>".toList)]
    let bytes : List UInt8 := [0xC3, 0xA9, 0xFF] ++ promptBytes
    let fault : PortRead := .failed "Input/output error".toList
    let arrivals : List Arrival := (reads ++ [fault]).map fun read => ⟨read, 100⟩
    let port : Port Nat := ⟨fun written _ => (written + 1, .ok arrivals)⟩
    let text : Text := "é\uFFFDmmwDemo:/>".toList
    Delivers reads bytes ∧ EndsOnce promptBytes bytes ∧
      begun 1000 arrivals = reads ++ [fault] ∧
      (receive (begun 1000 arrivals)).unread = [fault] ∧
      (port.endpoint 1000).send 0 "sensorStop".toList = ⟨.ok text, [.portReplied text], 1⟩ := by
  intro reads bytes fault arrivals port text
  have hfirst := Delivers.snoc .nil 1 (List.cons_ne_nil 0xC3 []) (by decide)
  have hsecond := hfirst.snoc 0 (List.cons_ne_nil 0xA9 (0xFF :: Utf8.encode "mmwD".toList))
    (by decide)
  have hrest : Utf8.encode "emo:/>".toList ≠ [] := by decide
  have hdelivers : Delivers reads bytes := hsecond.snoc 1 hrest (by decide)
  have hends : EndsOnce promptBytes bytes :=
    endsOnce_of_dropLast (List.suffix_append _ _) (by decide +kernel)
  have hbegun : begun 1000 arrivals = reads ++ [fault] := by decide +kernel
  have htext : Utf8.decode bytes = text := by decide +kernel
  obtain ⟨hwhole, -⟩ := port.send_as_delivered rfl hdelivers 1000
  obtain ⟨hunread, hsent⟩ := hwhole [fault] hbegun hends
  rw [htext] at hsent
  exact ⟨hdelivers, hends, hbegun, hunread, hsent⟩

end Port

end RadarProfile.Serial
