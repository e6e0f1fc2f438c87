import RadarProfile.Proofs.Replacing
import RadarProfile.Proofs.Stream

set_option autoImplicit false

/-! # The lines of a profile and its whole text

A reader cuts the bytes at their newlines and decodes each row on its own. Nothing is lost or
added by that: the lines with newlines between them are the text of all bytes, decoded at
once, without its carriage returns (`read_whole_text`). What a row ends with, a character
broken off for instance, is its own matter, since no sequence of UTF-8 goes on across a
newline (`Utf8.decode_join_append`). -/

namespace RadarProfile

/-! ## Counting and joining lines -/

namespace Lines

variable {α : Type} [BEq α] [LawfulBEq α] {newline : α}

omit [BEq α] [LawfulBEq α] in
theorem join_cons (line : List α) (lines : List (List α)) :
    join newline (line :: lines) = line ++ newline :: join newline lines := by
  simp only [join, List.flatMap_cons, List.append_assoc, List.cons_append, List.nil_append]

theorem length_ended (row : List α) : (ended newline row).length = row.count newline := by
  have hcount : ∀ lines : List (List α), (∀ line ∈ lines, newline ∉ line) →
      (join newline lines).count newline = lines.length := by
    intro lines
    induction lines with
    | nil => exact fun _ => rfl
    | cons line lines ih =>
        intro h
        have hline : line.count newline = 0 :=
          List.count_eq_zero_of_not_mem (h line List.mem_cons_self)
        have hlines := ih fun other hother => h other (List.mem_cons_of_mem _ hother)
        rw [join_cons, List.count_append, List.count_cons_self, hline, hlines,
          List.length_cons, Nat.zero_add]
  have hrow : join newline (ended newline row) ++ rest newline row = row := join_append_rest row
  conv_rhs => rw [← hrow]
  rw [List.count_append, hcount _ fun line hline => not_mem_of_mem_ended hline,
    List.count_eq_zero_of_not_mem (not_mem_rest row), Nat.add_zero]

/-- Nothing is left after the last newline if there is nothing at all, or if the row ends
with a newline. -/
theorem rest_eq_nil_iff (row : List α) :
    rest newline row = [] ↔ row = [] ∨ row.getLast? = some newline := by
  have hrow : join newline (ended newline row) ++ rest newline row = row := join_append_rest row
  constructor
  · intro hrest
    rw [hrest, List.append_nil] at hrow
    rcases List.eq_nil_or_concat (ended newline row) with hended | ⟨lines, line, hended⟩
    · rw [hended] at hrow
      exact Or.inl hrow.symm
    · refine Or.inr ?_
      rw [← hrow, hended, List.concat_eq_append, join_append, join_cons]
      simp [join]
  · rintro (rfl | hlast)
    · exact (cut_of_not_mem List.not_mem_nil).2
    · by_contra hrest
      rw [← hrow, List.getLast?_append_of_ne_nil _ hrest] at hlast
      exact not_mem_rest row (List.mem_of_getLast? hlast)

omit [BEq α] [LawfulBEq α] in
/-- A last line without a newline, after lines that have one. -/
theorem intercalate_append_singleton (lines : List (List α)) (last : List α) :
    [newline].intercalate (lines ++ [last]) = join newline lines ++ last := by
  induction lines with
  | nil => simp [join]
  | cons line lines ih =>
      have hne : lines ++ [last] ≠ [] := List.append_ne_nil_of_right_ne_nil _ (by simp)
      obtain ⟨next, others, hlines⟩ := List.exists_cons_of_ne_nil hne
      rw [List.cons_append, hlines, List.intercalate_cons_cons, ← hlines, ih, join_cons]
      simp only [List.append_assoc, List.cons_append, List.nil_append]

omit [BEq α] [LawfulBEq α] in
/-- What keeps newlines may be left out of each line alone. -/
theorem filter_join {keep : α → Bool} (h : keep newline = true) (lines : List (List α)) :
    (join newline lines).filter keep = join newline (lines.map (List.filter keep)) := by
  induction lines with
  | nil => rfl
  | cons line lines ih =>
      rw [List.map_cons, join_cons, join_cons, List.filter_append,
        List.filter_cons_of_pos h, ih]

end Lines

/-! ## Lines of texts -/

namespace Line

theorem map_number_ofRaws (number : Nat) (raws : List Text) :
    (ofRaws number raws).map Line.number = List.range' (number + 1) raws.length := by
  induction raws generalizing number with
  | nil => rfl
  | cons raw raws ih => exact congrArg ((number + 1) :: ·) (ih (number + 1))

theorem map_text_ofRaws (number : Nat) (raws : List Text) :
    (ofRaws number raws).map Line.text = raws.map (List.filter (· != '\r')) := by
  induction raws generalizing number with
  | nil => rfl
  | cons raw raws ih => exact congrArg (raw.filter (· != '\r') :: ·) (ih (number + 1))

end Line

namespace Reader

theorem ofChunks_bytes (parts : List (List UInt8)) :
    Segments.ofChunks (parts.map .bytes) = ⟨[], parts.flatten⟩ := by
  induction parts with
  | nil => rfl
  | cons part parts ih =>
      rw [List.map_cons, Segments.ofChunks, ih]
      rfl

theorem read_bytes (parts : List (List UInt8)) :
    read (parts.map .bytes) =
      (Line.ofRaws 0 ((Lines.all newline parts.flatten).map Utf8.decode)).map .ok := by
  rw [read_eq_items, ofChunks_bytes]
  exact linesAfter_eq 0 _

theorem join_texts (bytes : List UInt8) :
    (if bytes.getLast? = some newline then
        Lines.join '\n' ((Lines.all newline bytes).map fun row =>
          (Utf8.decode row).filter (· != '\r'))
      else ['\n'].intercalate ((Lines.all newline bytes).map fun row =>
          (Utf8.decode row).filter (· != '\r'))) =
      (Utf8.decode bytes).filter (· != '\r') := by
  have htext : (Utf8.decode bytes).filter (· != '\r') =
      Lines.join '\n' ((Lines.ended newline bytes).map fun row =>
          (Utf8.decode row).filter (· != '\r')) ++
        (Utf8.decode (Lines.rest newline bytes)).filter (· != '\r') := by
    have hbytes : Lines.join newline (Lines.ended newline bytes) ++ Lines.rest newline bytes =
        bytes := Lines.join_append_rest bytes
    conv_lhs => rw [← hbytes]
    rw [Utf8.decode_join_append, List.filter_append, Lines.filter_join (by decide),
      List.map_map]
    rfl
  rw [htext, Lines.all]
  -- the rest is one more line if there is anything in it
  by_cases hrest : Lines.rest newline bytes = []
  · rw [if_pos hrest, hrest, List.append_nil]
    rcases (Lines.rest_eq_nil_iff bytes).mp hrest with rfl | hlast
    · rfl
    · rw [if_pos hlast]
      exact (List.append_nil _).symm
  · have hlast : bytes.getLast? ≠ some newline :=
      fun h => hrest ((Lines.rest_eq_nil_iff bytes).mpr (Or.inr h))
    rw [if_neg hrest, if_neg hlast, List.map_append, List.map_singleton,
      Lines.intercalate_append_singleton]

/-- **Reading loses and adds nothing.** Whatever bytes come, and in whatever parts, there is a
line for each newline and one more for what comes after the last one, if anything does, and
the lines are numbered from one on. The lines with newlines between them, and one after the
last line where the bytes end with one, are the text of all bytes without its carriage
returns: the one text in which whatever is no UTF-8 is replaced, one replacement character
for as many bytes as begin a character together. Each line is the text of its own row, so
what is broken in one line changes no other. -/
theorem read_whole_text (parts : List (List UInt8)) :
    ∃ (lines : List Line) (text : Text),
      read (parts.map .bytes) = lines.map .ok ∧
      (∀ t, Utf8.Replaces parts.flatten t ↔ t = text) ∧
      lines.length = parts.flatten.count newline +
        (if parts.flatten = [] ∨ parts.flatten.getLast? = some newline then 0 else 1) ∧
      lines.map Line.number = List.range' 1 lines.length ∧
      (if parts.flatten.getLast? = some newline then Lines.join '\n' (lines.map Line.text)
        else ['\n'].intercalate (lines.map Line.text)) = text.filter (· != '\r') ∧
      lines.map Line.text = (Lines.all newline parts.flatten).map fun row =>
        (Utf8.decode row).filter (· != '\r') := by
  generalize hbytes : parts.flatten = bytes
  have htexts : (Line.ofRaws 0 ((Lines.all newline bytes).map Utf8.decode)).map Line.text =
      (Lines.all newline bytes).map fun row => (Utf8.decode row).filter (· != '\r') := by
    rw [Line.map_text_ofRaws, List.map_map]
    rfl
  have hnumbers := Line.map_number_ofRaws 0 ((Lines.all newline bytes).map Utf8.decode)
  have hlength := congrArg List.length htexts
  rw [List.length_map, List.length_map] at hlength
  refine ⟨_, Utf8.decode bytes, hbytes ▸ read_bytes parts, fun t => Utf8.replaces_iff, ?_, ?_,
    ?_, htexts⟩
  · rw [hlength, Lines.all, List.length_append, Lines.length_ended,
      apply_ite List.length (Lines.rest newline bytes = [])]
    simp only [Lines.rest_eq_nil_iff, List.length_nil, List.length_singleton]
  · rw [hnumbers, hlength, List.length_map]
  · rw [htexts]
    exact join_texts bytes

end Reader

end RadarProfile
