/-
The table holds the least number of edits.

An edit inserts, deletes or replaces one element, wherever it stands.  Nothing is said here
about the order of the edits or about what they have to do with each other, so it is not
obvious that the least number can be found by looking at the ends of the lists only, which is
what the table does.  Two things are needed.

  * The number that the recursion over the first elements gives can be reached: each of its
    three branches is one edit more, or none, than what it recurses to.
  * It cannot be undercut, because one edit changes it by one at most.  Where the edit stands
    behind common elements, these are taken off one by one.

The table goes from the front of the lists to their ends and the recursion the other way, so
the table holds the numbers of the reversed lists.  An edit of reversed lists is an edit of the
lists, so that this makes no difference: both are the least number of edits.
-/
import Mathlib.Order.Bounds.Basic
import Salutation.EditDistance

namespace Salutation.EditDistance

variable {α : Type}

/-! ### Edits -/

/-- One edit. -/
inductive Edit : List α → List α → Prop where
  | insert (front : List α) (x : α) (back : List α) : Edit (front ++ back) (front ++ x :: back)
  | delete (front : List α) (x : α) (back : List α) : Edit (front ++ x :: back) (front ++ back)
  | replace (front : List α) (x y : α) (back : List α) :
      Edit (front ++ x :: back) (front ++ y :: back)

/-- A number of edits, one after another. -/
inductive EditsIn : Nat → List α → List α → Prop where
  | refl (xs : List α) : EditsIn 0 xs xs
  | step {n : Nat} {xs ys zs : List α} (edit : Edit xs ys) (more : EditsIn n ys zs) :
      EditsIn (n + 1) xs zs

theorem Edit.symm {xs ys : List α} (h : Edit xs ys) : Edit ys xs := by
  cases h with
  | insert front x back => exact .delete front x back
  | delete front x back => exact .insert front x back
  | replace front x y back => exact .replace front y x back

theorem Edit.cons (x : α) {xs ys : List α} (h : Edit xs ys) : Edit (x :: xs) (x :: ys) := by
  cases h with
  | insert front y back => exact .insert (x :: front) y back
  | delete front y back => exact .delete (x :: front) y back
  | replace front y z back => exact .replace (x :: front) y z back

theorem Edit.reverse {xs ys : List α} (h : Edit xs ys) : Edit xs.reverse ys.reverse := by
  cases h with
  | insert front x back => simpa using Edit.insert back.reverse x front.reverse
  | delete front x back => simpa using Edit.delete back.reverse x front.reverse
  | replace front x y back => simpa using Edit.replace back.reverse x y front.reverse

namespace EditsIn

variable {m n : Nat} {xs ys zs : List α}

theorem trans (h : EditsIn m xs ys) (hmore : EditsIn n ys zs) : EditsIn (m + n) xs zs := by
  induction h with
  | refl xs => rwa [Nat.zero_add]
  | step edit _ ih =>
      rw [Nat.add_right_comm]
      exact .step edit (ih hmore)

theorem symm (h : EditsIn n xs ys) : EditsIn n ys xs := by
  induction h with
  | refl xs => exact .refl xs
  | step edit _ ih => exact ih.trans (.step edit.symm (.refl _))

theorem cons (x : α) (h : EditsIn n xs ys) : EditsIn n (x :: xs) (x :: ys) := by
  induction h with
  | refl xs => exact .refl (x :: xs)
  | step edit _ ih => exact .step (edit.cons x) ih

theorem reverse (h : EditsIn n xs ys) : EditsIn n xs.reverse ys.reverse := by
  induction h with
  | refl xs => exact .refl xs.reverse
  | step edit _ ih => exact .step edit.reverse ih

/-- Of two numbers of edits the lesser is one. -/
theorem least (hm : EditsIn m xs ys) (hn : EditsIn n xs ys) : EditsIn (min m n) xs ys := by
  by_cases h : m ≤ n
  · rwa [Nat.min_eq_left h]
  · rwa [Nat.min_eq_right (Nat.le_of_not_le h)]

theorem reverse_iff : EditsIn n xs.reverse ys.reverse ↔ EditsIn n xs ys := by
  constructor
  · intro h
    simpa using h.reverse
  · exact reverse

/-- Everything is inserted. -/
theorem insertAll (ys : List α) : EditsIn ys.length [] ys := by
  induction ys with
  | nil => exact .refl []
  | cons y ys ih => exact ih.trans (.step (.insert [] y ys) (.refl _))

end EditsIn

/-! ### The recursion over the first elements -/

variable [BEq α]

/-- The edit distance by recursion: the first elements are deleted, inserted, or put in each
other's place. -/
def recursive : List α → List α → Nat
  | [], ys => ys.length
  | x :: xs, [] => (x :: xs).length
  | x :: xs, y :: ys =>
    min (min (recursive xs (y :: ys) + 1) (recursive (x :: xs) ys + 1))
      (recursive xs ys + if x == y then 0 else 1)
termination_by xs ys => xs.length + ys.length

@[simp] theorem recursive_nil_left (ys : List α) : recursive [] ys = ys.length := by
  rw [recursive]

@[simp] theorem recursive_nil_right (xs : List α) : recursive xs [] = xs.length := by
  cases xs <;> rw [recursive]

theorem recursive_cons_cons (x y : α) (xs ys : List α) :
    recursive (x :: xs) (y :: ys) =
      min (min (recursive xs (y :: ys) + 1) (recursive (x :: xs) ys + 1))
        (recursive xs ys + if x == y then 0 else 1) := by
  rw [recursive]

/-! ### It can be reached -/

section

variable [LawfulBEq α]

/-- So many edits are enough. -/
theorem editsIn_recursive (xs ys : List α) : EditsIn (recursive xs ys) xs ys := by
  induction xs generalizing ys with
  | nil =>
      rw [recursive_nil_left]
      exact .insertAll ys
  | cons x xs ih =>
      induction ys with
      | nil =>
          rw [recursive_nil_right]
          exact (EditsIn.insertAll (x :: xs)).symm
      | cons y ys ihInner =>
          have hdelete : EditsIn (recursive xs (y :: ys) + 1) (x :: xs) (y :: ys) :=
            .step (.delete [] x xs) (ih (y :: ys))
          have hinsert : EditsIn (recursive (x :: xs) ys + 1) (x :: xs) (y :: ys) :=
            ihInner.trans (.step (.insert [] y ys) (.refl _))
          have hreplace : EditsIn (recursive xs ys + if x == y then 0 else 1)
              (x :: xs) (y :: ys) := by
            by_cases hsame : x = y
            · subst hsame
              simpa using (ih ys).cons x
            · simpa [hsame] using EditsIn.step (.replace [] x y xs) ((ih ys).cons y)
          rw [recursive_cons_cons]
          exact (hdelete.least hinsert).least hreplace

end

/-! ### It cannot be undercut

The recursion is zero between a list and itself, so it is enough that one edit lowers it by one
at most.  Behind a common beginning an edit is an edit of the rest, and there each of the three
kinds takes one step of the recursion, which adds no more than one.
-/

theorem recursive_self [LawfulBEq α] (xs : List α) : recursive xs xs = 0 := by
  induction xs with
  | nil => rw [recursive_nil_left, List.length_nil]
  | cons x xs ih => simp [recursive_cons_cons, ih]

/-- What a comparison of the first elements adds. -/
theorem cost_le (x y : α) : (if x == y then 0 else 1) ≤ 1 := by
  split <;> omega

theorem recursive_cons_right_le (y : α) (xs ys : List α) :
    recursive xs (y :: ys) ≤ recursive xs ys + 1 := by
  cases xs with
  | nil => simp
  | cons x xs =>
      rw [recursive_cons_cons]
      omega

theorem recursive_cons_left_le (x : α) (xs ys : List α) :
    recursive (x :: xs) ys ≤ recursive xs ys + 1 := by
  cases ys with
  | nil => simp
  | cons y ys =>
      rw [recursive_cons_cons]
      omega

theorem recursive_le_cons_left (x : α) (xs ys : List α) :
    recursive xs ys ≤ recursive (x :: xs) ys + 1 := by
  induction ys with
  | nil =>
      rw [recursive_nil_right, recursive_nil_right, List.length_cons]
      omega
  | cons y ys ih =>
      -- Every branch is at most one below: the first undoes the deletion itself.
      have hright := recursive_cons_right_le y xs ys
      rw [recursive_cons_cons]
      omega

theorem recursive_replace_le (x z : α) (xs ys : List α) :
    recursive (x :: xs) ys ≤ recursive (z :: xs) ys + 1 := by
  induction ys with
  | nil => simp
  | cons y ys ih =>
      have hcost := cost_le x y
      rw [recursive_cons_cons, recursive_cons_cons]
      omega

/-- The shorter list is replaced element by element, and the rest of the longer one inserted or
deleted. -/
theorem recursive_le_max (xs ys : List α) : recursive xs ys ≤ max xs.length ys.length := by
  induction xs generalizing ys with
  | nil => simp
  | cons x xs ih =>
      cases ys with
      | nil => simp
      | cons y ys =>
          have hrest := ih ys
          have hcost := cost_le x y
          rw [recursive_cons_cons, List.length_cons, List.length_cons]
          omega

/-- One more edit at most stays one more behind a common first element. -/
theorem recursive_cons_le_of_le (x : α) {xs zs : List α}
    (h : ∀ ys, recursive xs ys ≤ recursive zs ys + 1) (ys : List α) :
    recursive (x :: xs) ys ≤ recursive (x :: zs) ys + 1 := by
  induction ys with
  | nil => simpa using h []
  | cons y ys ih =>
      have hlonger := h (y :: ys)
      have hshorter := h ys
      rw [recursive_cons_cons, recursive_cons_cons]
      omega

theorem recursive_append_le_of_le (front : List α) {xs zs : List α}
    (h : ∀ ys, recursive xs ys ≤ recursive zs ys + 1) :
    ∀ ys, recursive (front ++ xs) ys ≤ recursive (front ++ zs) ys + 1 := by
  induction front with
  | nil => exact h
  | cons x front ih => exact recursive_cons_le_of_le x ih

/-- An edit saves no more than one. -/
theorem recursive_le_of_edit {xs zs : List α} (h : Edit xs zs) (ys : List α) :
    recursive xs ys ≤ recursive zs ys + 1 := by
  cases h with
  | insert front x back =>
      exact recursive_append_le_of_le front (recursive_le_cons_left x back) ys
  | delete front x back =>
      exact recursive_append_le_of_le front (recursive_cons_left_le x back) ys
  | replace front x z back =>
      exact recursive_append_le_of_le front (recursive_replace_le x z back) ys

/-- Fewer edits are not enough. -/
theorem recursive_le_of_editsIn [LawfulBEq α] {n : Nat} {xs ys : List α}
    (h : EditsIn n xs ys) : recursive xs ys ≤ n := by
  induction h with
  | refl xs => rw [recursive_self]
  | step edit _ ih =>
      have hedit := recursive_le_of_edit edit
      exact (hedit _).trans (Nat.succ_le_succ ih)

/-! ### The table

The rows are filled from the beginnings of the lists, and the recursion takes first elements off.
So the cell for two beginnings is what the recursion gives for these turned round, and `row` says
so for all cells of a row at once.
-/

/-- The row of the table for `xs`, from where `done` of the other list is behind; both are
turned round. -/
def row (xs : List α) : List α → List α → List Nat
  | done, [] => [recursive xs done]
  | done, y :: ys => recursive xs done :: row xs (y :: done) ys

theorem row_eq_cons (xs done ys : List α) :
    row xs done ys = recursive xs done :: (row xs done ys).tail := by
  cases ys <;> rfl

/-- The first row counts insertions. -/
theorem row_nil (done ys : List α) :
    row [] done ys = List.range' done.length (ys.length + 1) := by
  induction ys generalizing done with
  | nil => simp [row]
  | cons y ys ih =>
      rw [row, ih, recursive_nil_left, List.length_cons, List.length_cons, ← List.range'_succ]

/-- The cells of a row follow from the row above. -/
theorem cells_row (x : α) (xs done ys : List α) :
    cells x ys (row xs done ys) (recursive (x :: xs) done) = (row (x :: xs) done ys).tail := by
  induction ys generalizing done with
  | nil => rfl
  | cons y ys ih =>
      -- The cells above, to the left and above the left one are the recursion's three branches.
      have hcell : min (min (recursive xs (y :: done) + 1) (recursive (x :: xs) done + 1))
          (recursive xs done + if x == y then 0 else 1) = recursive (x :: xs) (y :: done) :=
        (recursive_cons_cons x y xs done).symm
      rw [row, row_eq_cons xs (y :: done), cells, hcell, ← row_eq_cons, ih, row, List.tail_cons,
        ← row_eq_cons]

theorem nextRow_row (x : α) (xs ys : List α) :
    nextRow ys (row xs [] ys) x = row (x :: xs) [] ys := by
  have hfirst : (row xs [] ys).headD 0 + 1 = recursive (x :: xs) [] := by
    rw [row_eq_cons, List.headD_cons, recursive_nil_right, recursive_nil_right, List.length_cons]
  rw [nextRow, hfirst, cells_row, ← row_eq_cons]

theorem foldl_nextRow (xs front ys : List α) :
    xs.foldl (nextRow ys) (row front [] ys) = row (xs.reverse ++ front) [] ys := by
  induction xs generalizing front with
  | nil => rfl
  | cons x xs ih =>
      rw [List.foldl_cons, nextRow_row, ih, List.reverse_cons, List.append_assoc]
      rfl

theorem getLastD_row (xs done ys : List α) (default : Nat) :
    (row xs done ys).getLastD default = recursive xs (ys.reverse ++ done) := by
  induction ys generalizing done default with
  | nil => rfl
  | cons y ys ih =>
      rw [row, List.getLastD_cons, ih, List.reverse_cons, List.append_assoc, List.singleton_append]

/-- The last cell of the table is what the recursion gives for the reversed lists. -/
theorem distance_eq_recursive (xs ys : List α) :
    distance xs ys = recursive xs.reverse ys.reverse := by
  have hfirst : List.range (ys.length + 1) = row [] [] ys := by
    rw [row_nil, List.length_nil, List.range_eq_range']
  rw [distance, hfirst, foldl_nextRow, getLastD_row, List.append_nil, List.append_nil]

/-! ### The distance -/

variable [LawfulBEq α]

/-- **The distance is the least number of edits that turn one list into the other.** -/
theorem isLeast_distance (xs ys : List α) : IsLeast {n | EditsIn n xs ys} (distance xs ys) := by
  rw [distance_eq_recursive]
  constructor
  · exact EditsIn.reverse_iff.mp (editsIn_recursive xs.reverse ys.reverse)
  · intro n h
    exact recursive_le_of_editsIn (EditsIn.reverse h)

/-- From the ends of the lists the recursion gives the same number as from their beginnings,
because both are the least one. -/
theorem distance_recursive (xs ys : List α) : distance xs ys = recursive xs ys := by
  have hfromEnds := isLeast_distance xs ys
  have hfromBeginnings : IsLeast {n | EditsIn n xs ys} (recursive xs ys) :=
    ⟨editsIn_recursive xs ys, fun _ h => recursive_le_of_editsIn h⟩
  exact hfromEnds.unique hfromBeginnings

theorem distance_self (xs : List α) : distance xs xs = 0 :=
  Nat.le_zero.mp ((isLeast_distance xs xs).2 (.refl xs))

/-- Different lists are at a distance. -/
theorem distance_eq_zero_iff {xs ys : List α} : distance xs ys = 0 ↔ xs = ys := by
  constructor
  · intro hzero
    have hedits : EditsIn (distance xs ys) xs ys := (isLeast_distance xs ys).1
    rw [hzero] at hedits
    cases hedits
    rfl
  · rintro rfl
    exact distance_self xs

theorem distance_comm (xs ys : List α) : distance xs ys = distance ys xs :=
  Nat.le_antisymm ((isLeast_distance xs ys).2 (isLeast_distance ys xs).1.symm)
    ((isLeast_distance ys xs).2 (isLeast_distance xs ys).1.symm)

/-- No more edits are needed than the longer list has elements. -/
theorem distance_le_max (xs ys : List α) : distance xs ys ≤ max xs.length ys.length := by
  rw [distance_recursive]
  exact recursive_le_max xs ys

theorem distance_triangle (xs ys zs : List α) :
    distance xs zs ≤ distance xs ys + distance ys zs :=
  (isLeast_distance xs zs).2 ((isLeast_distance xs ys).1.trans (isLeast_distance ys zs).1)

end Salutation.EditDistance
