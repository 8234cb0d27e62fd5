/-
Documents without their unknown keys.

What is unknown has no influence.  Said of two files: when the unknown keys are deleted from
a document, what is left describes the same configuration, and a file that holds it, however
it is written, loads to that configuration without a warning.

The argument goes through what the documents give the four fields.  A pruned document gives
each field the same value as before, and a configuration is settled by these values, so that
no two configurations are described by one document.
-/
import Salutation.Proofs.Config.Unknown
import Salutation.Proofs.Toml.Sameness

namespace Salutation.Config

open Toml

/-- The value at a key of the root without the unknown keys in it. -/
def withoutUnknownAt (name : String) : Node → Node
  | .table origin entries => .table origin (entries.filter fun entry => isKnown [name, entry.1.name])
  | node => node

/-- A document without its unknown keys and their values. -/
def withoutUnknown (table : Table) : Table :=
  (table.filter fun entry => isKnown [entry.1.name]).map fun entry =>
    (entry.1, withoutUnknownAt entry.1.name entry.2)

/-! ### Values that are the same

A pruned document that was written down again is the same document up to `Same`.  Whatever is said
of a value to describe a field says nothing of the places and nothing of the order, and so it can be
carried over.
-/

theorem IsText.of_same {a b : Node} {s : String} (h : a.Same b) (htext : IsText b s) :
    IsText a s := by
  obtain ⟨span, rfl⟩ := htext
  cases h with
  | scalar => exact ⟨_, rfl⟩
  | list _ hb => cases hb

theorem IsEmpty.of_elements? {node : Node} (h : node.elements? = some []) : IsEmpty node := by
  cases node with
  | scalar => cases h
  | array span elements =>
      cases h
      exact .array span
  | table => cases h
  | tables elements =>
      have hnone : elements = [] := by simpa [Node.elements?] using h
      rw [hnone]
      exact .tables

theorem IsEmpty.of_same {a b : Node} (h : a.Same b) (hempty : IsEmpty b) : IsEmpty a := by
  cases h with
  | scalar => cases hempty
  | @list _ _ _ bs ha hb hall =>
      have hnone : bs = [] := by
        cases hempty with
        | table => cases hb
        | array => exact (Option.some.inj hb).symm
        | tables => exact (Option.some.inj hb).symm
      rw [hnone] at hall
      rw [List.forall₂_nil_right_iff.mp hall] at ha
      exact .of_elements? ha
  | @table here _ as _ hall =>
      cases hempty
      have hnone : as = [] := by
        refine List.eq_nil_iff_forall_not_mem.mpr fun entry hmem => ?_
        have hget : as.get? entry.1.name = none :=
          rel_none_iff.mp (hall entry.1.name)
        exact Table.get?_eq_none_iff.mp hget (List.mem_map.mpr ⟨entry, hmem, rfl⟩)
      rw [hnone]
      exact .table here

theorem IsName.of_same {a b : Node} {s : String} (ha : a.Distinct) (h : a.Same b)
    (hname : IsName b s) : IsName a s := by
  cases hname with
  | text htext => exact .text (htext.of_same h)
  | @key origin key below hempty =>
      cases h with
      | list _ hb => cases hb
      | @table here _ as _ hall =>
          -- The only key on one side is the only key on the other.
          have hkeys : ∀ name ∈ Table.names as, name = key.name := by
            intro name hmem
            by_contra hother
            have hrel := hall name
            rw [Table.get?_cons, if_neg (Ne.symm hother)] at hrel
            exact Table.get?_eq_none_iff.mp (rel_none_iff.mp hrel) hmem
          have hrel := hall key.name
          rw [Table.get?_cons, if_pos rfl] at hrel
          obtain ⟨inner, hinner, hsame⟩ := rel_some_iff.mp hrel
          obtain ⟨found, hfound, rfl⟩ :=
            Table.eq_singleton (Node.distinct_table_iff.mp ha).keys hkeys hinner
          rw [← hfound]
          exact .key here found (hempty.of_same hsame)

/-! ### What a document describes -/

theorem IsText.unique {node : Node} {s t : String} (hs : IsText node s) (ht : IsText node t) :
    s = t := by
  obtain ⟨_, rfl⟩ := hs
  obtain ⟨_, hsame⟩ := ht
  cases hsame
  rfl

theorem IsName.unique {node : Node} {s t : String} (hs : IsName node s) (ht : IsName node t) :
    s = t := by
  cases hs with
  | text hs =>
      cases ht with
      | text ht => exact hs.unique ht
      | key =>
          obtain ⟨_, hsame⟩ := hs
          cases hsame
  | key =>
      cases ht with
      | text ht =>
          obtain ⟨_, hsame⟩ := ht
          cases hsame
      | key => rfl

section

variable {α : Type} {table pruned : Table} {name key : String} {means : Node → α → Prop}
  {default value other : α}

theorem Settles.unique (hmeans : ∀ node a b, means node a → means node b → a = b)
    (h : Settles table name key means default value)
    (hother : Settles table name key means default other) : value = other := by
  by_cases hgiven : ∃ node, Gives table name key node
  · obtain ⟨node, hnode⟩ := hgiven
    exact hmeans node _ _ (h.given node hnode) (hother.given node hnode)
  · have hnone : ∀ node, ¬Gives table name key node := not_exists.mp hgiven
    rw [h.absent hnone, hother.absent hnone]

/-- A document describes one configuration. -/
theorem Describes.unique {config other : Config} (h : Describes table config)
    (hother : Describes table other) : config = other := by
  have htext : ∀ node s t, IsText node s → IsText node t → s = t :=
    fun _ _ _ => IsText.unique
  have hname := h.name.unique htext hother.name
  have hmessage := h.message.unique htext hother.message
  have hformat := h.format.unique
    (fun _ _ _ ha hb => Format.name_injective (ha.unique hb)) hother.format
  have hverbosity := h.verbosity.unique
    (fun _ _ _ ha hb => Verbosity.name_injective (ha.unique hb)) hother.verbosity
  obtain ⟨⟨_, _⟩, ⟨_, _⟩⟩ := config
  obtain ⟨⟨_, _⟩, ⟨_, _⟩⟩ := other
  cases hname
  cases hmessage
  cases hformat
  cases hverbosity
  rfl

/-- A document fits if it describes a configuration. -/
theorem Describes.fits {config : Config} (h : Describes table config) : Fits table where
  name node hnode := ⟨_, h.name.given node hnode⟩
  message node hnode := ⟨_, h.message.given node hnode⟩
  format node hnode := ⟨_, h.format.given node hnode⟩
  verbosity node hnode := ⟨_, h.verbosity.given node hnode⟩

end

/-! ### What a pruned document gives -/

theorem get?_withoutUnknown (table : Table) (name : String) :
    (withoutUnknown table).get? name =
      if isKnown [name] then (table.get? name).map (withoutUnknownAt name) else none := by
  unfold withoutUnknown
  rw [Table.get?_mapNodes, Table.get?_filter fun name => isKnown [name]]
  split <;> rfl

/-- A table that holds what another one holds at its known keys. -/
def PrunedFrom (name : String) (node original : Node) : Prop :=
  ∃ here there entries originals, node = .table here entries ∧ original = .table there originals ∧
    ∀ key, Option.Rel Node.Same (Table.get? entries key)
      (if isKnown [name, key] then Table.get? originals key else none)

section

variable {table pruned : Table} (htable : table.Distinct) (hpruned : pruned.Distinct)
  (htables : HasTables table) (hsame : pruned.Same (withoutUnknown table))

include hsame

/-- A pruned document has nothing at the unknown keys of the root. -/
theorem isKnown_of_pruned {name : String} {node : Node} (hnode : pruned.get? name = some node) :
    isKnown [name] = true := by
  by_contra hunknown
  have hrel := hsame name
  rw [get?_withoutUnknown, if_neg hunknown, rel_none_iff, hnode] at hrel
  cases hrel

include htable htables

/-- A pruned document has the same tables in it, pruned. -/
theorem rel_prunedFrom {name : String} (hknown : isKnown [name] = true) :
    Option.Rel (PrunedFrom name) (pruned.get? name) (table.get? name) := by
  have hrel := hsame name
  rw [get?_withoutUnknown, if_pos hknown] at hrel
  cases horiginal : table.get? name with
  | none =>
      rw [horiginal] at hrel
      rw [rel_none_iff.mp hrel]
      exact .none
  | some original =>
      obtain ⟨there, originals, rfl⟩ := htables name (isKnown_root.mp hknown) original
        ((Table.has_iff_get? htable.keys).mpr horiginal)
      rw [horiginal] at hrel
      obtain ⟨node, hnode, hnodes⟩ := rel_some_iff.mp hrel
      rw [hnode]
      cases hnodes with
      | list _ hb => cases hb
      | @table here _ entries _ hentries =>
          refine .some ⟨here, there, entries, originals, rfl, rfl, fun key => ?_⟩
          have hkey := hentries key
          rwa [Table.get?_filter fun inner => isKnown [name, inner]] at hkey

include hpruned

/-- A pruned document gives a field what the document gave it. -/
theorem gives_of_pruned {name key : String} {node : Node} (hgives : Gives pruned name key node) :
    isKnown [name, key] = true ∧ ∃ original, Gives table name key original ∧
      node.Same original := by
  obtain ⟨origin, entries, hentries, hnode⟩ := (gives_iff hpruned).mp hgives
  have hrel := rel_prunedFrom htable htables hsame (isKnown_of_pruned hsame hentries)
  rw [hentries] at hrel
  cases horiginal : table.get? name with
  | none =>
      rw [horiginal] at hrel
      cases hrel
  | some original =>
      rw [horiginal] at hrel
      obtain ⟨_, there, _, originals, hhere, rfl, hkeys⟩ : PrunedFrom name _ original := by
        cases hrel
        assumption
      cases hhere
      have hkey := hkeys key
      rw [hnode] at hkey
      split at hkey
      case isTrue hknown =>
        cases hvalue : Table.get? originals key with
        | none =>
            rw [hvalue] at hkey
            cases hkey
        | some value =>
            rw [hvalue] at hkey
            cases hkey with
            | some h =>
                exact ⟨hknown, value, (gives_iff htable).mpr ⟨there, originals, horiginal, hvalue⟩, h⟩
      case isFalse => cases hkey

/-- What a document gives a known key, it still gives it when it is pruned. -/
theorem exists_gives_pruned {name key : String} (hname : isKnown [name] = true)
    (hkey : isKnown [name, key] = true) {original : Node} (hgives : Gives table name key original) :
    ∃ node, Gives pruned name key node := by
  obtain ⟨there, originals, horiginal, hvalue⟩ := (gives_iff htable).mp hgives
  have hrel := rel_prunedFrom htable htables hsame hname
  rw [horiginal] at hrel
  obtain ⟨node, hnode, here, _, entries, _, rfl, hthere, hkeys⟩ := rel_some_iff.mp hrel
  cases hthere
  have hinner := hkeys key
  rw [if_pos hkey, hvalue] at hinner
  obtain ⟨value, hvalue', -⟩ := rel_some_iff.mp hinner
  exact ⟨value, (gives_iff hpruned).mpr ⟨here, entries, hnode, hvalue'⟩⟩

theorem hasTables_of_pruned : HasTables pruned := by
  intro name hname node hnode
  have hrel := rel_prunedFrom htable htables hsame (isKnown_root.mpr hname)
  rw [(Table.has_iff_get? hpruned.keys).mp hnode] at hrel
  cases horiginal : table.get? name with
  | none =>
      rw [horiginal] at hrel
      cases hrel
  | some original =>
      rw [horiginal] at hrel
      cases hrel with
      | some h =>
          obtain ⟨here, _, entries, _, rfl, -⟩ := h
          exact ⟨here, entries, rfl⟩

/-- A pruned document has no unknown keys. -/
theorem unknownKeys_of_pruned : unknownKeys pruned = [] := by
  unfold unknownKeys
  rw [List.filter_eq_nil_iff]
  intro path hpath
  obtain ⟨⟨key, node⟩, hmem, hpath⟩ := List.mem_flatMap.mp hpath
  have hnode : pruned.get? key.name = some node :=
    (Table.has_iff_get? hpruned.keys).mp ⟨key, hmem, rfl⟩
  have hknown := isKnown_of_pruned hsame hnode
  rcases List.mem_cons.mp hpath with rfl | hinner
  · simp [hknown]
  · rw [if_pos hknown] at hinner
    obtain ⟨inner, hname, rfl⟩ := List.mem_map.mp hinner
    obtain ⟨origin, entries, rfl⟩ := hasTables_of_pruned htable hpruned htables hsame key.name
      (isKnown_root.mp hknown) node ⟨key, hmem, rfl⟩
    obtain ⟨⟨found, value⟩, hfound, rfl⟩ := List.mem_map.mp hname
    have hgives : Gives pruned key.name found.name value :=
      ⟨origin, entries, ⟨key, hmem, rfl⟩, ⟨found, hfound, rfl⟩⟩
    simp [(gives_of_pruned htable hpruned htables hsame hgives).1]

theorem Settles.of_pruned {α : Type} {name key : String} {means : Node → α → Prop}
    {default value : α} (hname : isKnown [name] = true) (hkey : isKnown [name, key] = true)
    (hmeans : ∀ node original a, node.Distinct → node.Same original → means original a →
      means node a)
    (h : Settles table name key means default value) :
    Settles pruned name key means default value := by
  refine ⟨fun node hgives => ?_, fun hnone => h.absent fun original hgives => ?_⟩
  · obtain ⟨-, original, horiginal, hnode⟩ := gives_of_pruned htable hpruned htables hsame hgives
    obtain ⟨origin, entries, hentries, hvalue⟩ := (gives_iff hpruned).mp hgives
    have hdistinct : node.Distinct := (hpruned.of_table hentries).of_get? hvalue
    exact hmeans node original value hdistinct hnode (h.given original horiginal)
  · obtain ⟨node, hnode⟩ :=
      exists_gives_pruned htable hpruned htables hsame hname hkey hgives
    exact hnone node hnode

/-- **A pruned document describes the same configuration.** -/
theorem Describes.of_pruned {config : Config} (h : Describes table config) :
    Describes pruned config where
  name := h.name.of_pruned htable hpruned htables hsame rfl rfl
    fun _ _ _ _ hnode htext => htext.of_same hnode
  message := h.message.of_pruned htable hpruned htables hsame rfl rfl
    fun _ _ _ _ hnode htext => htext.of_same hnode
  format := h.format.of_pruned htable hpruned htables hsame rfl rfl
    fun _ _ _ hdistinct hnode hname => hname.of_same hdistinct hnode
  verbosity := h.verbosity.of_pruned htable hpruned htables hsame rfl rfl
    fun _ _ _ hdistinct hnode hname => hname.of_same hdistinct hnode

end

/-- A document with tables in their places that describes a configuration decodes to it. -/
theorem ofTable_of_describes {table : Table} (htable : table.Distinct) (htables : HasTables table)
    {config : Config} (h : Describes table config) :
    ofTable table = .ok (config, unknownKeys table) := by
  obtain ⟨⟨found, unknown⟩, hfound⟩ := (ofTable_ok_iff htables).mpr h.fits
  rw [hfound, putTables_unknown htables hfound,
    (ofTable_describes htable htables hfound).unique h]

theorem withoutUnknown_distinct {table : Table} (htable : table.Distinct) :
    (withoutUnknown table).Distinct := by
  constructor
  · have hnames : (withoutUnknown table).names =
        Table.names (table.filter fun entry => isKnown [entry.1.name]) := by
      simp [withoutUnknown, Table.names, Function.comp_def]
    rw [hnames]
    exact htable.keys.sublist (List.filter_sublist.map _)
  · intro entry hentry
    obtain ⟨⟨key, node⟩, hmem, rfl⟩ := List.mem_map.mp hentry
    have hnode : node.Distinct := htable.below _ (List.mem_of_mem_filter hmem)
    cases node with
    | table origin entries =>
        have hentries : Table.Distinct entries := Node.distinct_table_iff.mp hnode
        refine Node.distinct_table_iff.mpr ⟨?_, fun inner hinner => ?_⟩
        · exact hentries.keys.sublist (List.filter_sublist.map _)
        · exact hentries.below _ (List.mem_of_mem_filter hinner)
    | _ => exact hnode

end Salutation.Config
