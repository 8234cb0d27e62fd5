/-
The unknown keys of a document.

There are two descriptions of what a file may hold: the table of known keys, from which
suggestions are made, and the fields into which values are put.  An unknown key is one that
the table does not list; `unknownKeys` finds them by going through the keys of the document
in order, without looking below a key that is unknown itself.  The decoder reports exactly
these, because a table's fields have exactly the keys that are listed for it.

No key is reported twice, because no two entries of a document have the same path.
-/
import Salutation.Proofs.Config.Fit

namespace Salutation.Config

open Toml

/-! ### Known and unknown keys -/

/-- Whether the key at a path is listed as known: a key of the root, or of a table of it. -/
def isKnown : List String → Bool
  | [key] => key ∈ keysOf knownTables none
  | [name, key] => key ∈ keysOf knownTables (some name)
  | _ => false

/-- The keys with their values in a table; other values have none. -/
def entriesOf : Node → Table
  | .table _ entries => entries
  | _ => []

/-- The paths of the keys that are visited: each key of the root, and behind one that is
known the keys below it. -/
def visitedKeys (table : Table) : List (List String) :=
  table.flatMap fun (key, node) =>
    [key.name] :: if isKnown [key.name] then (entriesOf node).names.map ([key.name, ·]) else []

/-- The paths of the unknown keys, in the order in which they are visited. -/
def unknownKeys (table : Table) : List (List String) :=
  (visitedKeys table).filter fun path => !isKnown path

theorem isKnown_root {name : String} : isKnown [name] = true ↔ name ∈ ["greeting", "output"] := by
  simp [isKnown, keysOf, knownTables]

theorem isKnown_greeting {name : String} :
    isKnown ["greeting", name] = true ↔ name ∈ ["name", "message"] := by
  simp [isKnown, keysOf, knownTables]

theorem isKnown_output {name : String} :
    isKnown ["output", name] = true ↔ name ∈ ["format", "verbosity"] := by
  simp [isKnown, keysOf, knownTables]

theorem unknownKeys_cons (key : Key) (node : Node) (more : Table) :
    unknownKeys ((key, node) :: more) =
      (if isKnown [key.name] then
        ((entriesOf node).names.map ([key.name, ·])).filter fun path => !isKnown path
      else [[key.name]]) ++ unknownKeys more := by
  unfold unknownKeys visitedKeys
  cases hknown : isKnown [key.name] <;> simp [hknown]

/-- A key of the root that is not known is among the unknown keys. -/
theorem mem_unknownKeys_of_root {table : Table} {name : String} (hname : name ∈ table.names)
    (hunknown : isKnown [name] = false) : [name] ∈ unknownKeys table := by
  obtain ⟨entry, hmem, rfl⟩ := List.mem_map.mp hname
  refine List.mem_filter.mpr ⟨List.mem_flatMap.mpr ⟨entry, hmem, List.mem_cons_self⟩, ?_⟩
  rw [hunknown]
  rfl

/-- A key in a known table is among the unknown keys if it is not known there. -/
theorem mem_unknownKeys_of_gives {table : Table} {name key : String} {node : Node}
    (hknown : isKnown [name] = true) (hgives : Gives table name key node)
    (hunknown : isKnown [name, key] = false) : [name, key] ∈ unknownKeys table := by
  obtain ⟨origin, entries, ⟨found, hfound, rfl⟩, ⟨inner, hinner, rfl⟩⟩ := hgives
  refine List.mem_filter.mpr ⟨List.mem_flatMap.mpr ⟨_, hfound, List.mem_cons_of_mem _ ?_⟩, ?_⟩
  · rw [if_pos hknown]
    exact List.mem_map_of_mem (List.mem_map_of_mem hinner)
  · rw [hunknown]
    rfl

/-- A key is unknown if it is not listed and stands at the root or in a table that is known. -/
theorem mem_unknownKeys {table : Table} (htables : HasTables table) {path : List String} :
    path ∈ unknownKeys table ↔ isKnown path = false ∧
      ((∃ key ∈ table.names, path = [key]) ∨
        ∃ name key node, isKnown [name] = true ∧ Gives table name key node ∧ path = [name, key]) := by
  constructor
  · intro hpath
    obtain ⟨hvisited, hunknown⟩ := List.mem_filter.mp hpath
    refine ⟨by simpa using hunknown, ?_⟩
    obtain ⟨⟨key, node⟩, hmem, hpath⟩ := List.mem_flatMap.mp hvisited
    rcases List.mem_cons.mp hpath with rfl | hpath
    · exact Or.inl ⟨key.name, List.mem_map_of_mem hmem, rfl⟩
    · split at hpath
      case isFalse => cases hpath
      case isTrue hknown =>
        obtain ⟨name, hname, rfl⟩ := List.mem_map.mp hpath
        obtain ⟨origin, entries, rfl⟩ :=
          htables key.name (isKnown_root.mp hknown) node ⟨key, hmem, rfl⟩
        obtain ⟨⟨inner, value⟩, hinner, rfl⟩ := List.mem_map.mp hname
        exact Or.inr ⟨key.name, inner.name, value, hknown,
          ⟨origin, entries, ⟨key, hmem, rfl⟩, ⟨inner, hinner, rfl⟩⟩, rfl⟩
  · rintro ⟨hunknown, ⟨name, hname, rfl⟩ | ⟨name, key, node, hknown, hgives, rfl⟩⟩
    · exact mem_unknownKeys_of_root hname hunknown
    · exact mem_unknownKeys_of_gives hknown hgives hunknown

/-! ### What the decoder reports

The decoder knows nothing of the list of known keys.  It goes by the fields of the table that it
fills, and reports what it has no field for.  That these are the keys that are not listed has to be
checked for each of the two tables, and this is where it is done.
-/

/-- The keys of a table that are no field's are reported, in order. -/
theorem putEntries_unknown {ρ : Type} {fields : List (Field ρ)} {table : Table}
    {record result : ρ} {unknown : List String}
    (h : putEntries fields table record = .ok (result, unknown)) :
    unknown = table.names.filter fun name => (fields.find? (·.key = name)).isNone := by
  induction table generalizing record unknown with
  | nil =>
      cases h
      rfl
  | cons entry more ih =>
      obtain ⟨key, node⟩ := entry
      unfold putEntries at h
      rw [Table.names, List.map_cons, List.filter_cons]
      split at h
      case h_1 field hfind =>
        rw [if_neg (by simp [hfind])]
        split at h
        case h_1 next hput => exact ih h
        case h_2 => cases h
      case h_2 hfind =>
        rw [if_pos (by simp [hfind])]
        split at h
        case h_1 hput =>
          cases h
          rw [ih hput]
          rfl
        case h_2 => cases h

/-- The fields of a table have the keys that are known for it. -/
theorem unknown_of_fields {ρ : Type} {fields : List (Field ρ)} {name : String}
    (hfields : ∀ key, (fields.find? (·.key = key)).isNone = !isKnown [name, key])
    (table : Table) :
    (table.names.filter fun key => (fields.find? (·.key = key)).isNone).map ([name, ·]) =
      (table.names.map ([name, ·])).filter fun path => !isKnown path := by
  rw [List.filter_map]
  congr 1
  exact List.filter_congr fun key _ => hfields key

theorem greetingFields_known (key : String) :
    (greetingFields.find? (·.key = key)).isNone = !isKnown ["greeting", key] := by
  by_cases hname : key = "name"
  · rw [hname]
    rfl
  · by_cases hmessage : key = "message"
    · rw [hmessage]
      rfl
    · have hknown : isKnown ["greeting", key] = false := by
        rw [← Bool.not_eq_true, isKnown_greeting]
        simp [hname, hmessage]
      simp [hknown, greetingFields, eq_comm, hname, hmessage]

theorem outputFields_known (key : String) :
    (outputFields.find? (·.key = key)).isNone = !isKnown ["output", key] := by
  by_cases hformat : key = "format"
  · rw [hformat]
    rfl
  · by_cases hverbosity : key = "verbosity"
    · rw [hverbosity]
      rfl
    · have hknown : isKnown ["output", key] = false := by
        rw [← Bool.not_eq_true, isKnown_output]
        simp [hformat, hverbosity]
      simp [hknown, outputFields, eq_comm, hformat, hverbosity]

section

variable {ρ : Type} {fields : List (Field ρ)} {wanted : Wanted} {default : ρ} {name : String}

/-- The unknown keys below a key of the root are reported with their paths. -/
theorem decodeRecord_unknown
    (hfields : ∀ key, (fields.find? (·.key = key)).isNone = !isKnown [name, key])
    {origin : Origin} {entries : Table} {place : Span} {result : ρ} {unknown : List String}
    (h : decodeRecord fields wanted default place (.table origin entries) =
      .ok (result, unknown)) :
    unknown.map ([name, ·]) =
      (entries.names.map ([name, ·])).filter fun path => !isKnown path := by
  rw [putEntries_unknown h]
  exact unknown_of_fields hfields entries

end

theorem HasTables.tail {entry : Key × Node} {more : Table} (h : HasTables (entry :: more)) :
    HasTables more := by
  intro name hname node hnode
  exact h name hname node (Table.has_cons.mpr (Or.inr hnode))

theorem HasTables.head {key : Key} {node : Node} {more : Table}
    (h : HasTables ((key, node) :: more)) {name : String} (hname : name ∈ ["greeting", "output"])
    (hkey : key.name = name) : ∃ origin entries, node = .table origin entries :=
  h name hname node (Table.has_cons.mpr (Or.inl ⟨hkey, rfl⟩))

/-- **The decoder reports the unknown keys**, in the order in which it visits them. -/
theorem putTables_unknown {table : Table} (htables : HasTables table) {config result : Config}
    {unknown : List (List String)} (h : putTables table config = .ok (result, unknown)) :
    unknown = unknownKeys table := by
  induction table generalizing config unknown with
  | nil =>
      cases h
      rfl
  | cons entry more ih =>
      obtain ⟨key, node⟩ := entry
      obtain ⟨next, here, later, hvisits, hlater, rfl⟩ := putTables_cons_ok h
      rw [unknownKeys_cons, ih htables.tail hlater]
      congr 1
      cases hvisits with
      | greeting hname hrecord =>
          obtain ⟨origin, entries, rfl⟩ := htables.head (by simp) hname
          rw [if_pos (isKnown_root.mpr (by simp [hname])), hname]
          exact decodeRecord_unknown greetingFields_known hrecord
      | output hname hrecord =>
          obtain ⟨origin, entries, rfl⟩ := htables.head (by simp) hname
          rw [if_pos (isKnown_root.mpr (by simp [hname])), hname]
          exact decodeRecord_unknown outputFields_known hrecord
      | unknown hgreeting houtput =>
          rw [if_neg (by simp [isKnown_root, hgreeting, houtput])]

/-- Whatever stands in the place of a table, the unknown keys below it are reported. -/
theorem decodeRecord_reports {ρ : Type} {fields : List (Field ρ)} {wanted : Wanted} {default : ρ}
    {name : String} (hfields : ∀ key, (fields.find? (·.key = key)).isNone = !isKnown [name, key])
    {node : Node} {place : Span} {result : ρ} {unknown : List String}
    (h : decodeRecord fields wanted default place node = .ok (result, unknown)) :
    ((entriesOf node).names.map ([name, ·])).filter (fun path => !isKnown path) ⊆
      unknown.map ([name, ·]) := by
  cases node with
  | table origin entries =>
      rw [decodeRecord_unknown hfields h]
      exact List.Subset.refl _
  | _ => exact List.nil_subset _

/-- Every unknown key is reported, in whatever way the tables are given. -/
theorem putTables_reports {table : Table} {config result : Config} {unknown : List (List String)}
    (h : putTables table config = .ok (result, unknown)) : unknownKeys table ⊆ unknown := by
  induction table generalizing config unknown with
  | nil => exact List.nil_subset _
  | cons entry more ih =>
      obtain ⟨key, node⟩ := entry
      obtain ⟨next, here, later, hvisits, hlater, rfl⟩ := putTables_cons_ok h
      rw [unknownKeys_cons]
      refine List.append_subset.mpr ⟨?_, List.Subset.trans (ih hlater) (List.subset_append_right _ _)⟩
      refine List.Subset.trans ?_ (List.subset_append_left _ _)
      cases hvisits with
      | greeting hname hrecord =>
          rw [if_pos (isKnown_root.mpr (by simp [hname])), hname]
          exact decodeRecord_reports greetingFields_known hrecord
      | output hname hrecord =>
          rw [if_pos (isKnown_root.mpr (by simp [hname])), hname]
          exact decodeRecord_reports outputFields_known hrecord
      | unknown hgreeting houtput =>
          rw [if_neg (by simp [isKnown_root, hgreeting, houtput])]
          exact List.Subset.refl _

/-- The path of a key that is reported is the key, perhaps behind a table. -/
theorem unknown_path {table : Table} {config result : Config} {unknown : List (List String)}
    (h : putTables table config = .ok (result, unknown)) {path : List String}
    (hpath : path ∈ unknown) : ∃ (table? : Option (List Char)) (key : List Char),
      path = (table?.map String.ofList).toList ++ [String.ofList key] := by
  induction table generalizing config unknown with
  | nil =>
      cases h
      cases hpath
  | cons entry more ih =>
      obtain ⟨key, node⟩ := entry
      obtain ⟨next, here, later, hvisits, hlater, rfl⟩ := putTables_cons_ok h
      rcases List.mem_append.mp hpath with hhere | hpath
      · cases hvisits with
        | greeting hname hrecord | output hname hrecord =>
            obtain ⟨inner, -, rfl⟩ := List.mem_map.mp hhere
            exact ⟨some key.name.toList, inner.toList, by simp⟩
        | unknown hgreeting houtput => exact ⟨none, key.name.toList, by simpa using hhere⟩
      · exact ih hlater hpath

/-! ### No key is reported twice -/

theorem visitedKeys_nodup {table : Table} (htable : table.Distinct) :
    (visitedKeys table).Nodup := by
  unfold visitedKeys
  rw [List.nodup_flatMap]
  refine ⟨?_, ?_⟩
  · rintro ⟨key, node⟩ hmem
    dsimp only
    rw [List.nodup_cons]
    split
    case isTrue =>
      refine ⟨by simp, List.Nodup.map (fun _ _ hsame => by simpa using hsame) ?_⟩
      cases node with
      | table origin entries => exact (Node.distinct_table_iff.mp (htable.below _ hmem)).keys
      | _ => exact List.nodup_nil
    case isFalse => simp
  · -- All paths of one entry start with its key.
    have hhead : ∀ entry : Key × Node, ∀ path ∈ ([entry.1.name] ::
        if isKnown [entry.1.name] then (entriesOf entry.2).names.map ([entry.1.name, ·]) else []),
        path.head? = some entry.1.name := by
      intro entry path hpath
      rcases List.mem_cons.mp hpath with rfl | hinner
      · rfl
      · split at hinner
        case isTrue =>
          obtain ⟨inner, -, rfl⟩ := List.mem_map.mp hinner
          rfl
        case isFalse => cases hinner
    have hkeys : table.Pairwise fun a b => a.1.name ≠ b.1.name :=
      List.pairwise_map.mp htable.keys
    refine hkeys.imp fun {a b} hne path ha hb => hne ?_
    have hsame : some a.1.name = some b.1.name := (hhead a path ha).symm.trans (hhead b path hb)
    exact Option.some.inj hsame

theorem unknownKeys_nodup {table : Table} (htable : table.Distinct) :
    (unknownKeys table).Nodup :=
  (visitedKeys_nodup htable).filter _

end Salutation.Config
