/-
Documents without dotted keys.

The outline of a document gives each statement with the full path of its key: an assignment
below a header has the header's path in front of its own.  Where every key is a single one,
nothing but a path that stands twice can keep the statements from being put together, and
the table that they make can be told at once: first the assignments before the first header,
then one table for each header.
-/
import Mathlib.Data.List.Nodup
import Salutation.Proofs.Toml.Assembly

namespace Salutation.Toml

/-- The names of a path's keys. -/
def KeyPath.names (path : KeyPath) : List String := path.keys.map (·.name)

/-- The statements of a document with the full paths of their keys.  `within` is the path of
the table that is open. -/
def outline (within : List String) : List Statement → List (List String × Statement)
  | [] => []
  | .assign assignment :: more =>
    (within ++ assignment.path.names, .assign assignment) :: outline within more
  | .header header :: more => (header.path.names, .header header) :: outline header.path.names more

/-- The full path of a statement's key. -/
def Statement.pathWithin (within : List String) : Statement → List String
  | .assign a => within ++ a.path.names
  | .header h => h.path.names

/-- The path of the table that is open behind a statement. -/
def Statement.openBehind (within : List String) : Statement → List String
  | .assign _ => within
  | .header h => h.path.names

theorem outline_cons (within : List String) (first : Statement) (more : List Statement) :
    outline within (first :: more) =
      (first.pathWithin within, first) :: outline (first.openBehind within) more := by
  cases first <;> rfl

/-- The outline goes through the sections. -/
theorem outline_eq_split (within : List String) (all : List Statement) :
    outline within all =
      ((Section.split all).1.map fun a => (within ++ a.path.names, Statement.assign a)) ++
        (Section.split all).2.flatMap fun part =>
          (part.header.path.names, Statement.header part.header) ::
            part.body.map fun a => (part.header.path.names ++ a.path.names, Statement.assign a) := by
  induction all generalizing within with
  | nil => rfl
  | cons first more ih =>
      cases first with
      | assign assignment =>
          rw [outline, ih within]
          rfl
      | header header =>
          rw [outline, ih header.path.names]
          simp [Section.split]

/-- An entry of the outline is an assignment before the first header, or belongs to a section. -/
theorem mem_outline {within : List String} {all : List Statement} {entry : List String × Statement} :
    entry ∈ outline within all ↔
      (∃ a ∈ (Section.split all).1, entry = (within ++ a.path.names, Statement.assign a)) ∨
        ∃ part ∈ (Section.split all).2,
          entry = (part.header.path.names, Statement.header part.header) ∨
            ∃ a ∈ part.body, entry = (part.header.path.names ++ a.path.names, Statement.assign a) := by
  simp [outline_eq_split, eq_comm]

@[simp] theorem map_snd_outline (within : List String) (all : List Statement) :
    (outline within all).map (·.2) = all := by
  induction all generalizing within with
  | nil => rfl
  | cons first more ih => rw [outline_cons, List.map_cons, ih]

/-- The statements of a document are those of its outline. -/
theorem forall_outline {p : Statement → Prop} {all : List Statement} (h : ∀ s ∈ all, p s)
    {within : List String} : ∀ entry ∈ outline within all, p entry.2 := by
  intro entry hentry
  exact h _ (map_snd_outline within all ▸ List.mem_map_of_mem hentry)

/-! ### Single keys -/

/-- A statement with a single key: an assignment to a key of the open table, or the header of
a table of the root. -/
def Statement.IsSingle : Statement → Prop
  | .assign a => a.path.parents = []
  | .header h => h.path.parents = [] ∧ h.isElement = false

/-- The entry that an assignment to a single key makes. -/
def Assignment.entry (assignment : Assignment) : Key × Node :=
  (assignment.path.last, assignment.value)

/-- The entry that a section with a single key makes. -/
def Section.entry (part : Section) : Key × Node :=
  (part.header.path.last, .table (.header part.span) (part.body.map Assignment.entry))

/-- The table that statements with single keys make. -/
def singleTable (all : List Statement) : Table :=
  (Section.split all).1.map Assignment.entry ++ (Section.split all).2.map Section.entry

theorem KeyPath.names_of_single {path : KeyPath} (h : path.parents = []) :
    path.names = [path.last.name] := by
  simp [names, keys, h]

theorem Table.names_concat (table : Table) (entry : Key × Node) :
    names (table ++ [entry]) = table.names ++ [entry.1.name] := by
  simp [names]

/-- Assignments to new single keys are added in order. -/
theorem Table.assignAll_single {within : Option (List String)} {assignments : List Assignment}
    {table : Table} (hsingle : ∀ a ∈ assignments, a.path.parents = [])
    (hnodup : (table.names ++ assignments.map (·.path.last.name)).Nodup) :
    table.assignAll within assignments = .ok (table ++ assignments.map Assignment.entry) := by
  induction assignments generalizing table with
  | nil => simp [assignAll]
  | cons first more ih =>
      obtain ⟨hfirst, hmore⟩ := List.forall_mem_cons.mp hsingle
      have hnew : table.get? first.path.last.name = none := by
        rw [get?_eq_none_iff]
        intro hmem
        exact List.disjoint_of_nodup_append hnodup hmem List.mem_cons_self
      have hnext : (names (table ++ [first.entry]) ++ more.map (·.path.last.name)).Nodup := by
        rw [names_concat]
        simpa [Assignment.entry] using hnodup
      have hassign : table.assign within first.path.parents first.path.last first.value =
          .ok (table ++ [first.entry]) := by
        rw [hfirst]
        simp [assign, hnew, Assignment.entry]
      rw [assignAll, hassign]
      dsimp only
      rw [ih hmore hnext]
      simp

namespace Section

/-- A section with a new single key is added at the end. -/
theorem addTo_single {part : Section} {root : Table} (hheader : part.header.path.parents = [])
    (helement : part.header.isElement = false)
    (hnew : part.header.path.last.name ∉ root.names)
    (hsingle : ∀ a ∈ part.body, a.path.parents = [])
    (hnodup : (part.body.map (·.path.last.name)).Nodup) :
    part.addTo root = .ok (root ++ [part.entry]) := by
  have hbody : ∀ within, Table.assignAll within part.body [] =
      .ok (part.body.map Assignment.entry) :=
    fun within => Table.assignAll_single hsingle hnodup
  have herase : root.erase part.header.path.last.name = root := by
    refine List.filter_eq_self.mpr fun entry hentry => ?_
    have hother : entry.1.name ≠ part.header.path.last.name := by
      intro hsame
      exact hnew (List.mem_map.mpr ⟨entry, hentry, hsame⟩)
    simpa using hother
  have hnone : root.get? part.header.path.last.name = none := Table.get?_eq_none_iff.mpr hnew
  simp [addTo, hheader, Table.openAt, helement, hnone, hbody, herase, entry]

theorem addAll_single {parts : List Section} {root : Table}
    (hheaders : ∀ part ∈ parts, part.header.path.parents = [] ∧ part.header.isElement = false)
    (hbodies : ∀ part ∈ parts, (∀ a ∈ part.body, a.path.parents = []) ∧
      (part.body.map (·.path.last.name)).Nodup)
    (hnodup : (root.names ++ parts.map (·.header.path.last.name)).Nodup) :
    addAll parts root = .ok (root ++ parts.map entry) := by
  induction parts generalizing root with
  | nil => simp [addAll]
  | cons part more ih =>
      obtain ⟨⟨hheader, helement⟩, hlater⟩ := List.forall_mem_cons.mp hheaders
      obtain ⟨⟨hsingle, hbody⟩, hbodies⟩ := List.forall_mem_cons.mp hbodies
      have hnew : part.header.path.last.name ∉ root.names := by
        intro hmem
        exact List.disjoint_of_nodup_append hnodup hmem List.mem_cons_self
      have hnext : (Table.names (root ++ [part.entry]) ++
          more.map (·.header.path.last.name)).Nodup := by
        rw [Table.names_concat]
        simpa [entry] using hnodup
      rw [addAll, addTo_single hheader helement hnew hsingle hbody]
      dsimp only
      rw [ih hlater hbodies hnext]
      simp

end Section

section

variable {all : List Statement} (hsingle : ∀ s ∈ all, s.IsSingle)

include hsingle

theorem single_body : ∀ a ∈ (Section.split all).1, a.path.parents = [] :=
  fun _ ha => hsingle _ (Section.mem_split (Or.inl ha))

theorem single_part : ∀ part ∈ (Section.split all).2,
    (part.header.path.parents = [] ∧ part.header.isElement = false) ∧
      ∀ a ∈ part.body, a.path.parents = [] := by
  intro part hpart
  refine ⟨?_, fun a ha => hsingle _ (Section.mem_split (Or.inr ⟨part, hpart, ha⟩))⟩
  have hmem : (part.header.path.names, Statement.header part.header) ∈ outline [] all :=
    mem_outline.mpr (Or.inr ⟨part, hpart, Or.inl rfl⟩)
  exact forall_outline hsingle _ hmem

/-- The paths of single keys: those of the root, and for each header its own and those of its
table. -/
theorem map_fst_outline_single :
    (outline [] all).map (·.1) =
      ((Section.split all).1.map fun a => [a.path.last.name]) ++
        (Section.split all).2.flatMap fun part => [part.header.path.last.name] ::
          part.body.map fun a => [part.header.path.last.name, a.path.last.name] := by
  rw [outline_eq_split, List.map_append, List.map_flatMap, List.map_map]
  congr 1
  · refine List.map_congr_left fun a ha => ?_
    simp [KeyPath.names_of_single (single_body hsingle a ha)]
  · refine List.flatMap_congr fun part hpart => ?_
    obtain ⟨⟨hheader, -⟩, hbody⟩ := single_part hsingle part hpart
    rw [List.map_cons, List.map_map, KeyPath.names_of_single hheader]
    congr 1
    refine List.map_congr_left fun a ha => ?_
    simp [KeyPath.names_of_single (hbody a ha)]

/-- **Statements with single keys go together unless a path stands twice.** -/
theorem assemble_single (hnodup : ((outline [] all).map (·.1)).Nodup) :
    assemble all = .ok (singleTable all) := by
  rw [map_fst_outline_single hsingle, List.nodup_append, List.nodup_flatMap] at hnodup
  obtain ⟨hroot, ⟨hwithin, hbetween⟩, hapart⟩ := hnodup
  have hparts := single_part hsingle
  have hbody : ((Section.split all).1.map (·.path.last.name)).Nodup := by
    refine List.Nodup.of_map (fun name => [name]) ?_
    rwa [List.map_map]
  have hbodies : ∀ part ∈ (Section.split all).2, (part.body.map (·.path.last.name)).Nodup := by
    intro part hpart
    refine List.Nodup.of_map (fun name => [part.header.path.last.name, name]) ?_
    rw [List.map_map]
    exact (List.nodup_cons.mp (hwithin part hpart)).2
  have hheaders : ((Section.split all).1.map (·.path.last.name) ++
      (Section.split all).2.map (·.header.path.last.name)).Nodup := by
    rw [List.nodup_append]
    refine ⟨hbody, List.pairwise_map.mpr (hbetween.imp ?_), ?_⟩
    · intro a b hdisjoint hsame
      exact hdisjoint List.mem_cons_self (hsame ▸ List.mem_cons_self)
    · intro name hname other hother hsame
      obtain ⟨a, ha, rfl⟩ := List.mem_map.mp hname
      obtain ⟨part, hpart, rfl⟩ := List.mem_map.mp hother
      refine hapart _ (List.mem_map_of_mem ha) _ (List.mem_flatMap.mpr ⟨part, hpart, ?_⟩) rfl
      rw [hsame]
      exact List.mem_cons_self
  have hassigned : Table.assignAll (some []) (Section.split all).1 [] =
      .ok ((Section.split all).1.map Assignment.entry) :=
    Table.assignAll_single (single_body hsingle) hbody
  simp only [assemble, hassigned]
  exact Section.addAll_single (fun part hpart => (hparts part hpart).1)
    (fun part hpart => ⟨(hparts part hpart).2, hbodies part hpart⟩)
    (by rwa [Table.names, List.map_map])

end

end Salutation.Toml
