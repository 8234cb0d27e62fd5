/-
Values that are the same, however they are written.

A value remembers where it stands and a table how it came about.  `Same` forgets both, and
the order of the keys as well: two tables are the same if they have the same values at the
same keys, and two lists if they have the same elements in the same order, whether they
stand between brackets or are made by headers.
-/
import Mathlib.Data.List.Forall2
import Mathlib.Data.Option.Basic
import Salutation.Proofs.Toml.Basic

namespace Salutation.Toml

/-! ### Values that may be missing -/

section

variable {α β : Type} {r : α → β → Prop} {a? : Option α}

theorem rel_none_iff : a?.Rel r none ↔ a? = none := by
  cases a? with
  | none => exact iff_of_true .none rfl
  | some a => exact iff_of_false nofun nofun

theorem rel_some_iff {b : β} : a?.Rel r (some b) ↔ ∃ a, a? = some a ∧ r a b := by
  constructor
  · rintro ⟨h⟩
    exact ⟨_, rfl, h⟩
  · rintro ⟨a, rfl, h⟩
    exact .some h

end

/-! ### Sameness -/

namespace Node

/-- The elements of a list. -/
def elements? : Node → Option (List Node)
  | .array _ elements => some elements
  | .tables elements => some (elements.map fun (span, entries) => .table (.header span) entries)
  | .scalar _ _ => none
  | .table _ _ => none

/-- Two values that hold the same, wherever and however they are written. -/
inductive Same : Node → Node → Prop where
  | scalar {here there : Span} (value : Scalar) : Same (.scalar here value) (.scalar there value)
  | list {a b : Node} {as bs : List Node} (ha : a.elements? = some as) (hb : b.elements? = some bs)
      (h : List.Forall₂ Same as bs) : Same a b
  | table {here there : Origin} {as bs : Table}
      (h : ∀ name, Option.Rel Same (as.get? name) (bs.get? name)) :
      Same (.table here as) (.table there bs)

end Node

namespace Table

/-- Two tables with the same values at the same keys. -/
def Same (as bs : Table) : Prop := ∀ name, Option.Rel Node.Same (as.get? name) (bs.get? name)

theorem same_of_entries {table : Table} (h : ∀ entry ∈ table, entry.2.Same entry.2) :
    table.Same table := by
  intro name
  cases hnode : table.get? name with
  | none => exact .none
  | some node =>
      obtain ⟨key, -, hmem⟩ := exists_of_get? hnode
      exact .some (h _ hmem)

end Table

/-- A value is the same as itself. -/
theorem Node.Distinct.same {node : Node} (h : node.Distinct) : node.Same node := by
  induction h with
  | scalar span value => exact .scalar value
  | array _ ih => exact .list rfl rfl (List.forall₂_same.mpr ih)
  | table _ _ ih => exact .table (Table.same_of_entries ih)
  | @tables elements _ _ ih =>
      refine .list rfl rfl (List.forall₂_same.mpr fun node hnode => ?_)
      obtain ⟨element, hmem, rfl⟩ := List.mem_map.mp hnode
      exact .table (Table.same_of_entries (ih element hmem))

theorem Table.Distinct.same {table : Table} (h : table.Distinct) : table.Same table :=
  Table.same_of_entries fun entry hentry => (h.below entry hentry).same

end Salutation.Toml
