import RadarProfile.Line.Reader
import RadarProfile.Proofs.Aftermath
import RadarProfile.Proofs.Lines

set_option autoImplicit false

/-! # What a reader makes of a stream

A stream is a row of chunks and faults, but how the bytes are cut into chunks says nothing
and neither does a read that was interrupted. What counts are its segments: the bytes up to
each reported fault, put together, and the bytes after the last one. The lines of a segment
are read in order; the fault that ends it costs what stands after its last newline, and
numbering goes on across it (`read_eq_items`). So a stream may be cut anywhere, also inside
a character (`read_by_segments`). -/

namespace RadarProfile

/-! ## Segments -/

/-- The bytes of a stream between its reported faults: the segments that a fault ends, each
with its fault, and the last segment. -/
structure Segments where
  broken : List (List UInt8 × Fault)
  last : List UInt8
deriving DecidableEq

namespace Segments

def prepend (bytes : List UInt8) : Segments → Segments
  | ⟨[], last⟩ => ⟨[], bytes ++ last⟩
  | ⟨(segment, fault) :: broken, last⟩ => ⟨(bytes ++ segment, fault) :: broken, last⟩

def ofChunks : List Chunk → Segments
  | [] => ⟨[], []⟩
  | .bytes bytes :: chunks => (ofChunks chunks).prepend bytes
  | .failed fault :: chunks =>
    if fault.isRetried then ofChunks chunks
    else ⟨([], fault) :: (ofChunks chunks).broken, (ofChunks chunks).last⟩

/-- The items of broken segments and of a last one, after `number` lines. A segment that a
fault ends has the lines that a newline ends; the last segment has all its lines. -/
def itemsFrom (last : List UInt8) : Nat → List (List UInt8 × Fault) → List Item
  | number, [] => Reader.linesAfter number (Lines.all Reader.newline last)
  | number, (segment, fault) :: broken =>
    Reader.linesAfter number (Lines.ended Reader.newline segment) ++
      .error fault ::
        itemsFrom last (number + (Lines.ended Reader.newline segment).length) broken

def itemsAfter (number : Nat) (segments : Segments) : List Item :=
  itemsFrom segments.last number segments.broken

/-! ### Putting bytes in front -/

theorem prepend_nil (segments : Segments) : segments.prepend [] = segments := by
  rcases segments with ⟨_ | ⟨⟨segment, fault⟩, broken⟩, last⟩
  · rfl
  · rfl

theorem prepend_append (bytes bytes' : List UInt8) (segments : Segments) :
    segments.prepend (bytes ++ bytes') = (segments.prepend bytes').prepend bytes := by
  rcases segments with ⟨_ | ⟨⟨segment, fault⟩, broken⟩, last⟩
  · simp only [prepend, List.append_assoc]
  · simp only [prepend, List.append_assoc]

end Segments

/-! ## Numbered lines -/

namespace Line

def ofRaws (number : Nat) : List Text → List Line
  | [] => []
  | raw :: rest => ofRaw (number + 1) raw :: ofRaws (number + 1) rest

theorem ofRaws_append (number : Nat) (raws raws' : List Text) :
    ofRaws number (raws ++ raws') =
      ofRaws number raws ++ ofRaws (number + raws.length) raws' := by
  induction raws generalizing number with
  | nil => rfl
  | cons raw rest ih =>
      have hnumber : number + 1 + rest.length = number + (rest.length + 1) := by omega
      rw [List.cons_append, ofRaws, ih, hnumber]
      rfl

end Line

namespace Reader

theorem linesAfter_eq (number : Nat) (rows : List (List UInt8)) :
    linesAfter number rows = (Line.ofRaws number (rows.map Utf8.decode)).map .ok := by
  induction rows generalizing number with
  | nil => rfl
  | cons row rows ih =>
      rw [linesAfter, ih]
      rfl

theorem linesAfter_append (number : Nat) (rows rows' : List (List UInt8)) :
    linesAfter number (rows ++ rows') =
      linesAfter number rows ++ linesAfter (number + rows.length) rows' := by
  rw [linesAfter_eq, linesAfter_eq, linesAfter_eq, List.map_append, Line.ofRaws_append,
    List.map_append, List.length_map]

/-- **Bytes in front of segments** give the lines that they complete; the rest of them
stands in front of what follows. -/
theorem itemsAfter_prepend (number : Nat) (bytes : List UInt8) (segments : Segments) :
    (segments.prepend bytes).itemsAfter number =
      linesAfter number (Lines.ended newline bytes) ++
        (segments.prepend (Lines.rest newline bytes)).itemsAfter
          (number + (Lines.ended newline bytes).length) := by
  rcases segments with ⟨_ | ⟨⟨segment, fault⟩, broken⟩, last⟩
  · simp only [Segments.prepend, Segments.itemsAfter, Segments.itemsFrom, Lines.all,
      Lines.ended_append bytes last, Lines.rest_append bytes last, List.append_assoc,
      linesAfter_append]
  · simp only [Segments.prepend, Segments.itemsAfter, Segments.itemsFrom,
      Lines.ended_append bytes segment, linesAfter_append, List.append_assoc,
      List.length_append, Nat.add_assoc]

/-- A segment without a newline gives its fault and no line. -/
theorem itemsAfter_lost (number : Nat) {lost : List UInt8} (h : newline ∉ lost)
    (fault : Fault) (segments : Segments) :
    Segments.itemsAfter number ⟨(lost, fault) :: segments.broken, segments.last⟩ =
      .error fault :: segments.itemsAfter number := by
  simp only [Segments.itemsAfter, Segments.itemsFrom, (Lines.cut_of_not_mem h).1, linesAfter,
    List.nil_append, List.length_nil, Nat.add_zero]

/-! ## Reading -/

/-- A reader that has an unfinished line at hand reads on as if its bytes came first. -/
theorem readFrom_eq (number : Nat) {unfinished : List UInt8} (h : newline ∉ unfinished)
    (chunks : List Chunk) :
    readFrom number unfinished chunks =
      ((Segments.ofChunks chunks).prepend unfinished).itemsAfter number := by
  -- the unfinished line never holds a newline, so no line of it is missed
  induction chunks generalizing number unfinished with
  | nil =>
      obtain ⟨hended, hrest⟩ := Lines.cut_of_not_mem h
      have hlast : (Segments.prepend unfinished ⟨[], []⟩).itemsAfter number =
          linesAfter number (Lines.all newline unfinished) := by
        rw [Segments.prepend, List.append_nil]
        rfl
      rw [Segments.ofChunks, hlast, readFrom, Lines.all, hended, hrest]
      cases unfinished with
      | nil => rfl
      | cons b bytes => rfl
  | cons chunk chunks ih =>
      cases chunk with
      | bytes bytes =>
          have hread : readFrom number unfinished (.bytes bytes :: chunks) =
              linesAfter number (Lines.ended newline (unfinished ++ bytes)) ++
                readFrom (number + (Lines.ended newline (unfinished ++ bytes)).length)
                  (Lines.rest newline (unfinished ++ bytes)) chunks := rfl
          rw [hread, ih _ (Lines.not_mem_rest _), Segments.ofChunks, ← Segments.prepend_append,
            itemsAfter_prepend number (unfinished ++ bytes)]
      | failed fault =>
          rw [readFrom, Segments.ofChunks]
          cases hretried : fault.isRetried with
          | true =>
              simp only [if_true]
              exact ih number h
          | false =>
              -- the unfinished line is lost with the fault
              simp only [Bool.false_eq_true, if_false, Segments.prepend, List.append_nil]
              rw [itemsAfter_lost number h, ih number List.not_mem_nil, Segments.prepend_nil]

/-- **What is read are the items of the segments.** -/
theorem read_eq_items (chunks : List Chunk) :
    read chunks = (Segments.ofChunks chunks).itemsAfter 0 := by
  rw [read, readFrom_eq 0 List.not_mem_nil, Segments.prepend_nil]

/-! ## The lines read -/

def linesOf (items : List Item) : List Line := items.filterMap Except.toOption

theorem linesOf_linesAfter (number : Nat) (rows : List (List UInt8)) :
    (linesOf (linesAfter number rows)).map Line.number =
      List.range' (number + 1) rows.length := by
  induction rows generalizing number with
  | nil => rfl
  | cons row rows ih => exact congrArg ((number + 1) :: ·) (ih (number + 1))

/-- Numbers that go on where the first ones end. -/
theorem linesOf_append_numbered {number : Nat} {items items' : List Item} {first rest : Nat}
    (h : (linesOf items).map Line.number = List.range' (number + 1) first)
    (h' : (linesOf items').map Line.number = List.range' (number + first + 1) rest) :
    (linesOf (items ++ items')).map Line.number = List.range' (number + 1) (first + rest) := by
  have hstart : number + 1 + first = number + first + 1 := by omega
  rw [linesOf, List.filterMap_append, List.map_append]
  rw [linesOf] at h h'
  rw [h, h', ← hstart, List.range'_append_1]

/-- The lines of segments are numbered in a row, across all faults. -/
theorem exists_numbered_itemsFrom (last : List UInt8) (number : Nat)
    (broken : List (List UInt8 × Fault)) :
    ∃ count, (linesOf (Segments.itemsFrom last number broken)).map Line.number =
      List.range' (number + 1) count := by
  induction broken generalizing number with
  | nil => exact ⟨_, linesOf_linesAfter number _⟩
  | cons segment broken ih =>
      obtain ⟨count, hrest⟩ := ih (number + (Lines.ended newline segment.1).length)
      exact ⟨_, linesOf_append_numbered (linesOf_linesAfter number _) hrest⟩

/-- **The lines of a stream are numbered from one on**, without a gap. -/
theorem numbers_read (chunks : List Chunk) :
    (linesOf (read chunks)).map Line.number =
      List.range' 1 (linesOf (read chunks)).length := by
  obtain ⟨count, hnumbers⟩ := exists_numbered_itemsFrom (Segments.ofChunks chunks).last 0
    (Segments.ofChunks chunks).broken
  have hcount : (linesOf (read chunks)).length = count := by
    rw [read_eq_items, ← List.length_map Line.number]
    exact (congrArg List.length hnumbers).trans List.length_range'
  rw [hcount, read_eq_items]
  exact hnumbers

theorem exists_bytes_of_mem_linesAfter {number : Nat} {rows : List (List UInt8)}
    {line : Line} (h : .ok line ∈ linesAfter number rows) :
    ∃ number' row, row ∈ rows ∧ line = lineOf number' row := by
  induction rows generalizing number with
  | nil => exact absurd h List.not_mem_nil
  | cons row rows ih =>
      rcases List.mem_cons.mp h with h | h
      · exact ⟨number + 1, row, List.mem_cons_self, Except.ok.inj h⟩
      · obtain ⟨number', row', hmem, hline⟩ := ih h
        exact ⟨number', row', List.mem_cons_of_mem _ hmem, hline⟩

theorem exists_bytes_of_mem_read {chunks : List Chunk} {line : Line}
    (h : .ok line ∈ read chunks) :
    ∃ number row, newline ∉ row ∧ line = lineOf number row := by
  rw [read_eq_items, Segments.itemsAfter] at h
  generalize (Segments.ofChunks chunks).broken = broken at h
  generalize 0 = number at h
  induction broken generalizing number with
  | nil =>
      obtain ⟨number', row, hrow, hline⟩ := exists_bytes_of_mem_linesAfter h
      exact ⟨number', row, Lines.not_mem_of_mem_all hrow, hline⟩
  | cons segment broken ih =>
      rcases List.mem_append.mp h with h | h
      · obtain ⟨number', row, hrow, hline⟩ := exists_bytes_of_mem_linesAfter h
        exact ⟨number', row, Lines.not_mem_of_mem_ended hrow, hline⟩
      · rcases List.mem_cons.mp h with h | h
        · cases h
        · exact ih _ h

/-! ## Giving up -/

theorem untilFaults_map_ok (patience : Nat) (lines : List Line) :
    untilFaults (patience + 1) (lines.map .ok) = lines.map .ok := by
  induction lines with
  | nil => rfl
  | cons line rest ih => rw [List.map_cons, untilFaults, ih]

/-- Who gives up at a fault sees nothing else than lines only if there is no fault. -/
theorem eq_of_untilFaults_eq {patience : Nat} {items : List Item} {lines : List Line}
    (h : untilFaults (patience + 1) items = lines.map .ok) : items = lines.map .ok := by
  induction items generalizing lines with
  | nil => exact h
  | cons item items ih =>
      cases lines with
      | nil =>
          cases item with
          | ok line => rw [untilFaults] at h; cases h
          | error fault => rw [untilFaults] at h; cases h
      | cons line lines =>
          cases item with
          | ok line' =>
              rw [untilFaults, List.map_cons, List.cons.injEq] at h
              rw [h.1, ih h.2, List.map_cons]
          | error fault => rw [untilFaults] at h; cases h

/-! ## Cutting a stream elsewhere -/

/-- Streams that are read alike with any unfinished line at hand are read alike after any
other stream. -/
theorem readFrom_append_congr {chunks chunks' : List Chunk}
    (h : ∀ number {unfinished : List UInt8}, newline ∉ unfinished →
      readFrom number unfinished chunks = readFrom number unfinished chunks')
    (before : List Chunk) (number : Nat) {unfinished : List UInt8}
    (hunfinished : newline ∉ unfinished) :
    readFrom number unfinished (before ++ chunks) =
      readFrom number unfinished (before ++ chunks') := by
  induction before generalizing number unfinished with
  | nil => exact h number hunfinished
  | cons chunk before ih =>
      cases chunk with
      | bytes bytes =>
          have hrest := ih (number + (Lines.ended newline (unfinished ++ bytes)).length)
            (Lines.not_mem_rest (unfinished ++ bytes))
          exact congrArg (linesAfter number (Lines.ended newline (unfinished ++ bytes)) ++ ·)
            hrest
      | failed fault =>
          rw [List.cons_append, List.cons_append, readFrom, readFrom, ih number hunfinished,
            ih number List.not_mem_nil]

theorem readFrom_bytes_append (number : Nat) {unfinished : List UInt8}
    (h : newline ∉ unfinished) (bytes bytes' : List UInt8) (after : List Chunk) :
    readFrom number unfinished (.bytes (bytes ++ bytes') :: after) =
      readFrom number unfinished (.bytes bytes :: .bytes bytes' :: after) := by
  rw [readFrom_eq number h, readFrom_eq number h, Segments.ofChunks, Segments.ofChunks,
    Segments.ofChunks, Segments.prepend_append]

theorem readFrom_interrupted (number : Nat) (unfinished : List UInt8) (after : List Chunk) :
    readFrom number unfinished (.failed .interrupted :: after) =
      readFrom number unfinished after := by
  rw [readFrom, if_pos (show Fault.interrupted.isRetried = true by decide)]

theorem readFrom_lost (number : Nat) {unfinished lost : List UInt8}
    (h : newline ∉ unfinished) (hlost : newline ∉ lost) {fault : Fault}
    (hfault : fault ≠ .interrupted) (after : List Chunk) :
    readFrom number unfinished (.bytes lost :: .failed fault :: after) =
      readFrom number unfinished (.failed fault :: after) := by
  have hreported : fault.isRetried = false := beq_eq_false_iff_ne.mpr hfault
  have hboth : newline ∉ unfinished ++ lost := by
    rw [List.mem_append]
    exact not_or.mpr ⟨h, hlost⟩
  rw [readFrom_eq number h, readFrom_eq number h, Segments.ofChunks, Segments.ofChunks,
    ← Segments.prepend_append]
  simp only [hreported, Bool.false_eq_true, if_false, Segments.prepend, List.append_nil]
  rw [itemsAfter_lost number hboth, itemsAfter_lost number h]

/-- **How a stream is cut does not matter**, and a fault costs the unfinished line only. What
is read are the lines of its segments, numbered in a row across the faults between them.
Bytes may come in one chunk or in two, wherever they are cut; a read may be interrupted
anywhere; and bytes without a newline before a fault that is reported are as good as none. -/
theorem read_by_segments (chunks : List Chunk) :
    read chunks = (Segments.ofChunks chunks).itemsAfter 0 ∧
      (linesOf (read chunks)).map Line.number =
        List.range' 1 (linesOf (read chunks)).length ∧
      (∀ (before after : List Chunk) (bytes bytes' : List UInt8),
        read (before ++ .bytes (bytes ++ bytes') :: after) =
          read (before ++ .bytes bytes :: .bytes bytes' :: after)) ∧
      (∀ before after : List Chunk,
        read (before ++ .failed .interrupted :: after) = read (before ++ after)) ∧
      ∀ (before after : List Chunk) (lost : List UInt8) (fault : Fault), newline ∉ lost →
        fault ≠ .interrupted →
          read (before ++ .bytes lost :: .failed fault :: after) =
            read (before ++ .failed fault :: after) := by
  refine ⟨read_eq_items chunks, numbers_read chunks, fun before after bytes bytes' => ?_,
    fun before after => ?_, fun before after lost fault hlost hfault => ?_⟩
  · exact readFrom_append_congr
      (fun number _ h => readFrom_bytes_append number h bytes bytes' after)
      before 0 List.not_mem_nil
  · exact readFrom_append_congr
      (fun number unfinished _ => readFrom_interrupted number unfinished after)
      before 0 List.not_mem_nil
  · exact readFrom_append_congr
      (fun number _ h => readFrom_lost number h hlost hfault after) before 0 List.not_mem_nil

/-- A character cut in two by an interrupted read, and a line that a fault cuts off: the
character is read as it is, the line is lost up to its newline, and the next one has the
next number. -/
theorem read_by_segments_across_faults :
    let before : List Chunk := [.bytes [0x61, 0xC3], .failed .interrupted, .bytes [0xA9, 0x0A]]
    let after : List Chunk := [.bytes [0x63, 0x0A, 0x64]]
    read (before ++ .bytes [0x62] :: .failed (.system 5) :: after) =
        read (before ++ .failed (.system 5) :: after) ∧
      read (before ++ .failed (.system 5) :: after) =
        [.ok ⟨1, "a\u00E9".toList⟩, .error (.system 5), .ok ⟨2, "c".toList⟩,
          .ok ⟨3, "d".toList⟩] := by
  intro before after
  obtain ⟨_, _, _, _, hlost⟩ := read_by_segments []
  exact ⟨hlost before after [0x62] (.system 5) (by decide) (by decide), by decide +kernel⟩

end Reader

end RadarProfile
