/-
Edit distance: the least number of insertions, deletions and substitutions that turn one
list into another.

The distances between the beginnings of two lists form a table, and a row of it needs only
the row above.  The first row counts insertions; a cell is the least of the cell above plus
a deletion, the cell to the left plus an insertion, and the cell diagonally above plus a
substitution where the two elements differ.
-/

namespace Salutation.EditDistance

variable {α : Type} [BEq α]

/-- The cells of a row after its first, for the element `x` against the elements `ys`, from
the row above and the cell to the left. -/
def cells (x : α) : List α → List Nat → Nat → List Nat
  | y :: ys, diagonal :: up :: above, left =>
    let cell := min (min (up + 1) (left + 1)) (diagonal + if x == y then 0 else 1)
    cell :: cells x ys (up :: above) cell
  | _, _, _ => []

/-- The row of the table for one more element `x`, from the row above. -/
def nextRow (ys : List α) (above : List Nat) (x : α) : List Nat :=
  let first := above.headD 0 + 1
  first :: cells x ys above first

/-- The edit distance between two lists. -/
def distance (xs ys : List α) : Nat :=
  (xs.foldl (nextRow ys) (List.range (ys.length + 1))).getLastD 0

end Salutation.EditDistance
