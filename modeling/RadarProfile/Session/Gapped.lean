import RadarProfile.Text.Basic

set_option autoImplicit false

/-! # Rows with gaps

A row is a list of symbols and gaps; a gap stands for any number of symbols. Two rows
overlap if some row without gaps fits both. The question is answered by going through the
two rows together: of two symbols each has to agree with the other, and where one row has a
gap, either the gap ends or it takes in the next symbol of the other row. -/

namespace RadarProfile.Gapped

variable {α : Type}

/-- A row: its symbols, and `none` for each gap. -/
abbrev Row (α : Type) := List (Option α)

/-- Whether a row that begins with `first` overlaps another row. `rest` answers the
question for what follows `first`; `fills` says which symbols a gap may take in. -/
def against (agree : α → α → Bool) (fills : α → Bool) (first : Option α)
    (rest : Row α → Bool) : Row α → Bool
  | [] => first.isNone && rest []
  | other :: others =>
    match first, other with
    -- a gap ends here, or it takes in what stands on the other side
    | none, none => rest (other :: others) || against agree fills first rest others
    | none, some b =>
      rest (other :: others) || (fills b && against agree fills first rest others)
    | some a, none =>
      against agree fills first rest others || (fills a && rest (other :: others))
    | some a, some b => agree a b && rest others

def overlap (agree : α → α → Bool) (fills : α → Bool) : Row α → Row α → Bool
  | [] => fun row => row.all (·.isNone)
  | first :: rest => against agree fills first (overlap agree fills rest)

theorem overlap_self {agree : α → α → Bool} (fills : α → Bool)
    (h : ∀ a, agree a a = true) (row : Row α) : overlap agree fills row row = true := by
  induction row with
  | nil => rfl
  | cons first rest ih =>
    cases first with
    | some a => simp [overlap, against, h, ih]
    | none =>
      have step : against agree fills none (overlap agree fills rest) rest = true := by
        cases rest with
        | nil => rfl
        | cons other others => cases other <;> simp [against, ih]
      simp [overlap, against, step]

end RadarProfile.Gapped
