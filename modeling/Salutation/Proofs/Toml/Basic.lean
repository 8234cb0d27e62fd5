/-
Tables with distinct keys.

A table is a list of entries, so nothing in its type keeps a key from standing twice, and
looking up a key finds the first.  `Distinct` says that no key does, in a table and in all
that is below it.  The three changes that are ever made to a table keep it: an entry with a
new key is added, a value is replaced, an entry is removed.
-/
import Mathlib.Data.List.Nodup
import Salutation.Toml.Basic

namespace Salutation.Toml

namespace Table

/-- The names of a table's keys. -/
def names (table : Table) : List String := table.map (·.1.name)

end Table

/-- No key stands twice in any table of a value. -/
inductive Node.Distinct : Node → Prop where
  | scalar (span : Span) (value : Scalar) : Distinct (.scalar span value)
  | array {span : Span} {elements : List Node} (hbelow : ∀ node ∈ elements, Distinct node) :
      Distinct (.array span elements)
  | table {origin : Origin} {entries : Table} (hkeys : entries.names.Nodup)
      (hbelow : ∀ entry ∈ entries, Distinct entry.2) : Distinct (.table origin entries)
  | tables {elements : List (Span × Table)} (hkeys : ∀ element ∈ elements, element.2.names.Nodup)
      (hbelow : ∀ element ∈ elements, ∀ entry ∈ element.2, Distinct entry.2) :
      Distinct (.tables elements)

namespace Table

/-- No key stands twice in a table, nor in any table below it. -/
structure Distinct (table : Table) : Prop where
  keys : table.names.Nodup
  below : ∀ entry ∈ table, entry.2.Distinct

end Table

/-! ### Tables as values -/

theorem Node.distinct_table_iff {origin : Origin} {entries : Table} :
    (Node.table origin entries).Distinct ↔ entries.Distinct := by
  constructor
  · rintro ⟨⟩
    exact ⟨‹_›, ‹_›⟩
  · rintro ⟨hkeys, hbelow⟩
    exact .table hkeys hbelow

theorem Node.distinct_tables_iff {elements : List (Span × Table)} :
    (Node.tables elements).Distinct ↔ ∀ element ∈ elements, element.2.Distinct := by
  constructor
  · rintro ⟨⟩ element hmem
    rename_i hkeys hbelow
    exact ⟨hkeys element hmem, hbelow element hmem⟩
  · intro h
    exact .tables (fun element hmem => (h element hmem).keys)
      (fun element hmem => (h element hmem).below)

namespace Table

/-! ### Looking up a key -/

theorem get?_eq_none_iff {table : Table} {name : String} :
    table.get? name = none ↔ name ∉ table.names := by
  simp [get?, names, List.find?_eq_none]

theorem get?_cons (key : Key) (node : Node) (more : Table) (name : String) :
    get? ((key, node) :: more) name = if key.name = name then some node else get? more name := by
  unfold get?
  by_cases h : key.name = name
  · simp [h]
  · simp [h]

theorem get?_filter (keep : String → Bool) (table : Table) (name : String) :
    get? (table.filter fun entry => keep entry.1.name) name =
      if keep name then table.get? name else none := by
  induction table with
  | nil => simp [get?]
  | cons entry more ih =>
      rw [List.filter_cons, show entry :: more = (entry.1, entry.2) :: more from rfl, get?_cons]
      by_cases hkeep : keep entry.1.name = true
      · rw [if_pos hkeep, get?_cons, ih]
        by_cases hname : entry.1.name = name
        · rw [if_pos hname, if_pos hname, ← hname, if_pos hkeep]
        · rw [if_neg hname, if_neg hname]
      · rw [if_neg hkeep, ih]
        by_cases hname : entry.1.name = name
        · rw [if_pos hname, ← hname, if_neg hkeep, if_neg hkeep]
        · rw [if_neg hname]

theorem get?_mapNodes (f : String → Node → Node) (table : Table) (name : String) :
    get? (table.map fun entry => (entry.1, f entry.1.name entry.2)) name =
      (table.get? name).map (f name) := by
  induction table with
  | nil => rfl
  | cons entry more ih =>
      rw [List.map_cons, get?_cons, ih,
        show entry :: more = (entry.1, entry.2) :: more from rfl, get?_cons]
      by_cases hname : entry.1.name = name
      · simp [hname]
      · simp [hname]

theorem exists_of_get? {table : Table} {name : String} {node : Node}
    (h : table.get? name = some node) : ∃ key, key.name = name ∧ (key, node) ∈ table := by
  obtain ⟨entry, hfind, hnode⟩ := Option.map_eq_some_iff.mp h
  refine ⟨entry.1, ?_, ?_⟩
  · simpa using List.find?_some hfind
  · rw [← hnode]
    exact List.mem_of_find?_eq_some hfind

/-- A table with one key is what is found at that key. -/
theorem eq_singleton {table : Table} (hkeys : table.names.Nodup) {name : String} {node : Node}
    (honly : ∀ other ∈ table.names, other = name) (hnode : table.get? name = some node) :
    ∃ key, key.name = name ∧ table = [(key, node)] := by
  match table with
  | [] => cases hnode
  | [(key, found)] =>
    have hkey : key.name = name := honly key.name List.mem_cons_self
    rw [get?_cons, if_pos hkey] at hnode
    exact ⟨key, hkey, by rw [Option.some.inj hnode]⟩
  | first :: second :: more =>
    have hfirst : first.1.name = name := honly _ List.mem_cons_self
    have hsecond : second.1.name = name := honly _ (List.mem_cons_of_mem _ List.mem_cons_self)
    simp [names, hfirst, hsecond] at hkeys

/-- A table has a value at a key. -/
def Has (table : Table) (name : String) (node : Node) : Prop :=
  ∃ key, (key, node) ∈ table ∧ key.name = name

theorem has_cons {key : Key} {node other : Node} {more : Table} {name : String} :
    Has ((key, node) :: more) name other ↔ key.name = name ∧ node = other ∨ Has more name other := by
  constructor
  · rintro ⟨found, hmem, rfl⟩
    rcases List.mem_cons.mp hmem with hhere | hlater
    · cases hhere
      exact Or.inl ⟨rfl, rfl⟩
    · exact Or.inr ⟨found, hlater, rfl⟩
  · rintro (⟨rfl, rfl⟩ | ⟨found, hmem, rfl⟩)
    · exact ⟨key, List.mem_cons_self, rfl⟩
    · exact ⟨found, List.mem_cons_of_mem _ hmem, rfl⟩

/-- With distinct keys, a table has at a key what is found by looking the key up. -/
theorem has_iff_get? {table : Table} (hkeys : table.names.Nodup) {name : String} {node : Node} :
    table.Has name node ↔ table.get? name = some node := by
  constructor
  · rintro ⟨key, hmem, rfl⟩
    induction table with
    | nil => cases hmem
    | cons entry more ih =>
        obtain ⟨hfresh, hmore⟩ : entry.1.name ∉ names more ∧ (names more).Nodup := by
          simpa [names] using hkeys
        rw [show entry :: more = (entry.1, entry.2) :: more from rfl, get?_cons]
        rcases List.mem_cons.mp hmem with rfl | hlater
        · exact if_pos rfl
        · have hother : entry.1.name ≠ key.name := by
            intro hsame
            exact hfresh (List.mem_map.mpr ⟨_, hlater, hsame.symm⟩)
          rw [if_neg hother]
          exact ih hmore hlater
  · intro h
    obtain ⟨key, hname, hmem⟩ := exists_of_get? h
    exact ⟨key, hmem, hname⟩

/-! ### Changes -/

namespace Distinct

variable {table : Table} (h : table.Distinct)

theorem nil : Distinct [] := ⟨List.nodup_nil, by simp⟩

include h

theorem of_get? {name : String} {node : Node} (hnode : table.get? name = some node) :
    node.Distinct := by
  obtain ⟨key, -, hmem⟩ := exists_of_get? hnode
  exact h.below _ hmem

/-- An entry with a new key may be added. -/
theorem concat {key : Key} {node : Node} (hnew : table.get? key.name = none)
    (hnode : node.Distinct) : Distinct (table ++ [(key, node)]) := by
  have hkey : key.name ∉ table.names := get?_eq_none_iff.mp hnew
  refine ⟨?_, ?_⟩
  · unfold names at hkey ⊢
    rw [List.map_append, List.nodup_append]
    refine ⟨h.keys, by simp, ?_⟩
    intro name hname other hother hsame
    simp only [List.map_cons, List.map_nil, List.mem_singleton] at hother
    exact hkey (hother ▸ hsame ▸ hname)
  · intro entry hentry
    rcases List.mem_append.mp hentry with hold | hlast
    · exact h.below entry hold
    · rw [List.mem_singleton.mp hlast]
      exact hnode

/-- A value may be replaced. -/
theorem replace (name : String) {node : Node} (hnode : node.Distinct) :
    (table.replace name node).Distinct := by
  have hnames : (table.replace name node).names = table.names := by
    simp only [names, Table.replace, List.map_map]
    refine List.map_congr_left fun entry _ => ?_
    simp only [Function.comp_apply]
    split <;> rfl
  refine ⟨by rw [hnames]; exact h.keys, ?_⟩
  intro entry hentry
  obtain ⟨old, hold, rfl⟩ := List.mem_map.mp hentry
  dsimp only
  split
  · exact hnode
  · exact h.below old hold

/-- An entry may be removed. -/
theorem erase (name : String) : (table.erase name).Distinct :=
  ⟨h.keys.sublist (List.filter_sublist.map _), fun entry hentry =>
    h.below entry (List.mem_of_mem_filter hentry)⟩

end Distinct

theorem get?_erase (table : Table) (name : String) : (table.erase name).get? name = none := by
  rw [get?_eq_none_iff]
  simp [names, erase]

end Table

end Salutation.Toml
