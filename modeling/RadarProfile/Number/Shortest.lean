import RadarProfile.Number.Binary64

set_option autoImplicit false

/-! # The fewest digits that read back

A finite double is written with the fewest decimal digits from which the nearest double is
that double again. The search goes from coarse decimal grids to fine ones. On each grid
only the two points next to the value are tried; the first grid on which one of them reads
back wins, of two the nearer. A point half way is decided by the layout that the digits
are for, since conventions differ there.

Sizes are whole numbers of `10^(-1074)`, in which every finite double is whole: so the
finest grid holds the value itself, and the search needs no grid beyond it. -/

namespace RadarProfile

inductive TieRule where
  | up
  | even
deriving DecidableEq

namespace Shortest

/-- A point of a decimal grid: `digits` times `10^(grid - 1074)`. -/
structure Point where
  digits : Nat
  grid : Nat
deriving DecidableEq

/-- The double nearest to the point has this rank. -/
def Point.readsBack (rank : Nat) (p : Point) : Bool :=
  Binary64.nearestRank (p.digits * Nat.pow 10 p.grid) (Nat.pow 10 1074) == rank

/-- The nearer of the two points next to a value, `below` and the one above it, given how
far the value lies above `below` and how far the points are apart. -/
def nearer (tie : TieRule) (below excess gap : Nat) : Nat :=
  if 2 * excess < gap then below
  else if gap < 2 * excess then below + 1
  else match tie with
    | .up => below + 1
    | .even => if below % 2 = 0 then below else below + 1

/-- The point for a value, given in units of `10^(-1074)`, on the coarsest grid from `grid`
down on which a neighbour of the value passes the test. -/
def search (test : Point → Bool) (tie : TieRule) (value : Nat) : Nat → Point
  -- the value itself is a point of the finest grid
  | 0 => ⟨value, 0⟩
  | grid + 1 =>
    let gap := Nat.pow 10 (grid + 1)
    let below := value / gap
    match test ⟨below, grid + 1⟩, test ⟨below + 1, grid + 1⟩ with
    | false, false => search test tie value grid
    | true, false => ⟨below, grid + 1⟩
    | false, true => ⟨below + 1, grid + 1⟩
    | true, true => ⟨nearer tie below (value % gap) gap, grid + 1⟩

def decimalUnits (x : Binary64) : Nat := x.units * Nat.pow 5 1074

/-- The shortest point for a finite double. -/
def ofBinary64 (tie : TieRule) (x : Binary64) : Point :=
  let value := decimalUnits x
  -- the gap of the first grid has one more digit than the whole part of the value
  search (Point.readsBack x.rank) tie value
    (1074 + (Nat.toDigits 10 (value / Nat.pow 10 1074)).length)

end Shortest

end RadarProfile
