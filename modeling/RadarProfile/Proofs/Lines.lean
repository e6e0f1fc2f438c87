import Mathlib.Data.List.Basic

set_option autoImplicit false

/-! # Cutting a row at its newlines

A row, of bytes or of characters, falls into the lines that a newline ends and the rest
after the last newline. The two are defined from core's `List.splitOnP` and known by what
they are (`cut_iff`): rows without a newline that give the row back when each line is
followed by one. Everything else is read off that, first of all how two rows are cut that
stand side by side (`ended_append`, `rest_append`). A row that is cut at its first newline only,
or at the first of any other mark, is found in front of it (`takeWhile_ne_append`). -/

namespace RadarProfile.Lines

variable {α : Type} [BEq α] [LawfulBEq α] (newline : α)

/-- The lines of a row that are ended by a newline, without it. -/
def ended (row : List α) : List (List α) := (row.splitOnP (· == newline)).dropLast

/-- The rest of a row after its last newline. -/
def rest (row : List α) : List α := (row.splitOnP (· == newline)).getLast?.getD []

/-- All lines of a row. The rest is one of them if there is anything in it. -/
def all (row : List α) : List (List α) :=
  ended newline row ++ if rest newline row = [] then [] else [rest newline row]

def join (lines : List (List α)) : List α := lines.flatMap (· ++ [newline])

variable {newline}

omit [LawfulBEq α] in
theorem splitOnP_eq (row : List α) :
    row.splitOnP (· == newline) = ended newline row ++ [rest newline row] := by
  have hne := List.splitOnP_ne_nil (· == newline) row
  rw [ended, rest, List.getLast?_eq_some_getLast hne]
  exact (List.dropLast_append_getLast hne).symm

omit [BEq α] [LawfulBEq α] in
theorem join_cons_append (line : List α) (lines : List (List α)) (tail : List α) :
    join newline (line :: lines) ++ tail = line ++ newline :: (join newline lines ++ tail) := by
  simp only [join, List.flatMap_cons, List.append_assoc, List.cons_append, List.nil_append]

theorem beq_eq_false_of_not_mem {row : List α} (h : newline ∉ row) :
    ∀ x ∈ row, (x == newline) = false := by
  intro x hx
  rw [beq_eq_false_iff_ne]
  rintro rfl
  exact h hx

theorem splitOnP_join_append {lines : List (List α)} (h : ∀ line ∈ lines, newline ∉ line)
    (tail : List α) :
    (join newline lines ++ tail).splitOnP (· == newline) =
      lines ++ tail.splitOnP (· == newline) := by
  induction lines with
  | nil => rfl
  | cons line lines ih =>
      have hline := beq_eq_false_of_not_mem (h line List.mem_cons_self)
      rw [join_cons_append,
        List.splitOnP_append_cons_of_forall_mem hline newline (beq_self_eq_true newline),
        ih fun other hother => h other (List.mem_cons_of_mem _ hother), List.cons_append]

variable (newline) in
omit [BEq α] [LawfulBEq α] in
theorem exists_cut (row : List α) :
    ∃ lines tail, row = join newline lines ++ tail ∧ (∀ line ∈ lines, newline ∉ line) ∧
      newline ∉ tail := by
  induction row with
  | nil => exact ⟨[], [], rfl, by simp, by simp⟩
  | cons x row ih =>
      obtain ⟨lines, tail, rfl, hlines, htail⟩ := ih
      by_cases hx : x = newline
      · -- a newline ends a line with nothing in it
        subst hx
        refine ⟨[] :: lines, tail, rfl, ?_, htail⟩
        intro line hline
        rcases List.mem_cons.mp hline with rfl | hline
        · exact List.not_mem_nil
        · exact hlines line hline
      · -- the character belongs to the first line, or to the rest if there is no line
        cases lines with
        | nil =>
            refine ⟨[], x :: tail, rfl, by simp, ?_⟩
            intro hmem
            rcases List.mem_cons.mp hmem with h | h
            · exact hx h.symm
            · exact htail h
        | cons line lines =>
            refine ⟨(x :: line) :: lines, tail, rfl, ?_, htail⟩
            intro other hother
            rcases List.mem_cons.mp hother with rfl | hother
            · intro hmem
              rcases List.mem_cons.mp hmem with h | h
              · exact hx h.symm
              · exact hlines line List.mem_cons_self h
            · exact hlines other (List.mem_cons_of_mem _ hother)

/-- **How a row is cut** is known by what the parts are. -/
theorem cut_iff {row tail : List α} {lines : List (List α)} :
    (ended newline row = lines ∧ rest newline row = tail) ↔
      row = join newline lines ++ tail ∧ (∀ line ∈ lines, newline ∉ line) ∧ newline ∉ tail := by
  -- parts that are as on the right are what the row is split into
  have hsplit : ∀ (lines : List (List α)) (tail : List α), (∀ line ∈ lines, newline ∉ line) →
      newline ∉ tail → ended newline (join newline lines ++ tail) = lines ∧
        rest newline (join newline lines ++ tail) = tail := by
    intro lines tail hlines htail
    have htail' : tail.splitOnP (· == newline) = [tail] :=
      List.splitOnP_eq_singleton (beq_eq_false_of_not_mem htail)
    have hrow := splitOnP_join_append hlines tail
    rw [htail', splitOnP_eq] at hrow
    exact List.append_inj' hrow rfl |>.imp_right fun h => (List.cons.inj h).1
  constructor
  · rintro ⟨rfl, rfl⟩
    obtain ⟨lines, tail, rfl, hlines, htail⟩ := exists_cut newline row
    obtain ⟨hended, hrest⟩ := hsplit lines tail hlines htail
    rw [hended, hrest]
    exact ⟨rfl, hlines, htail⟩
  · rintro ⟨rfl, hlines, htail⟩
    exact hsplit lines tail hlines htail

theorem join_append_rest (row : List α) :
    join newline (ended newline row) ++ rest newline row = row :=
  (cut_iff.mp ⟨rfl, rfl⟩).1.symm

theorem not_mem_of_mem_ended {row line : List α} (h : line ∈ ended newline row) :
    newline ∉ line :=
  (cut_iff.mp ⟨rfl, rfl⟩).2.1 line h

theorem not_mem_rest (row : List α) : newline ∉ rest newline row :=
  (cut_iff.mp ⟨rfl, rfl⟩).2.2

theorem not_mem_of_mem_all {row line : List α} (h : line ∈ all newline row) :
    newline ∉ line := by
  rw [all, List.mem_append] at h
  rcases h with h | h
  · exact not_mem_of_mem_ended h
  · split at h
    · exact absurd h List.not_mem_nil
    · rw [List.mem_singleton] at h
      rw [h]
      exact not_mem_rest row

/-! ## Rows side by side -/

theorem cut_of_not_mem {row : List α} (h : newline ∉ row) :
    ended newline row = [] ∧ rest newline row = row :=
  cut_iff.mpr ⟨rfl, by simp, h⟩

omit [BEq α] [LawfulBEq α] in
theorem join_append (lines lines' : List (List α)) :
    join newline (lines ++ lines') = join newline lines ++ join newline lines' :=
  List.flatMap_append

/-- Where two rows meet, the rest of the first one is continued by the second. -/
theorem cut_append (row row' : List α) :
    ended newline (row ++ row') =
        ended newline row ++ ended newline (rest newline row ++ row') ∧
      rest newline (row ++ row') = rest newline (rest newline row ++ row') := by
  rw [cut_iff]
  refine ⟨?_, ?_, not_mem_rest _⟩
  · calc row ++ row'
        = join newline (ended newline row) ++ (rest newline row ++ row') := by
          rw [← List.append_assoc, join_append_rest]
      _ = join newline (ended newline row) ++
            (join newline (ended newline (rest newline row ++ row')) ++
              rest newline (rest newline row ++ row')) := by rw [join_append_rest]
      _ = _ := by rw [join_append, List.append_assoc]
  · intro line hline
    rcases List.mem_append.mp hline with hline | hline
    · exact not_mem_of_mem_ended hline
    · exact not_mem_of_mem_ended hline

theorem ended_append (row row' : List α) :
    ended newline (row ++ row') =
      ended newline row ++ ended newline (rest newline row ++ row') :=
  (cut_append row row').1

theorem rest_append (row row' : List α) :
    rest newline (row ++ row') = rest newline (rest newline row ++ row') :=
  (cut_append row row').2

/-! ## The first mark -/

variable {mark : α} {front : List α}

theorem bne_of_not_mem (h : mark ∉ front) : ∀ x ∈ front, (x != mark) = true := by
  intro x hx
  rw [bne_iff_ne]
  rintro rfl
  exact h hx

theorem takeWhile_ne_append (h : mark ∉ front) (back : List α) :
    (front ++ mark :: back).takeWhile (· != mark) = front := by
  rw [List.takeWhile_append_of_pos (bne_of_not_mem h), List.takeWhile_cons_of_neg (by simp),
    List.append_nil]

theorem dropWhile_ne_append (h : mark ∉ front) (back : List α) :
    (front ++ mark :: back).dropWhile (· != mark) = mark :: back := by
  rw [List.dropWhile_append_of_pos (bne_of_not_mem h), List.dropWhile_cons_of_neg (by simp)]

end RadarProfile.Lines
