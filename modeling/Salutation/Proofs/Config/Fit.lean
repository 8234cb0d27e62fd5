/-
Which documents fit the configuration.

Whether a document fits is said by what it has, not by going through it: a name and a
message have to be texts, a format and a verbosity have to be named, and everything else
may be anything.  What a document has is said by membership, so neither the order of the
keys nor the way in which a table is written can matter, and each field is on its own.

The decoder accepts exactly the documents that fit.  It stops at the first value that does
not fit, so `putEntries_ok_iff` says of one table that it is accepted as soon as each of
its values is, and `putTables_ok_iff` says the same of the document.
-/
import Salutation.Proofs.Config.Layers

namespace Salutation

theorem Format.ofName?_eq_some_iff {s : String} {format : Format} :
    Format.ofName? s = some format ↔ s = format.name := by
  constructor
  · intro h
    have hname : format.name = s := by simpa using List.find?_some h
    exact hname.symm
  · rintro rfl
    cases format <;> rfl

theorem Verbosity.ofName?_eq_some_iff {s : String} {verbosity : Verbosity} :
    Verbosity.ofName? s = some verbosity ↔ s = verbosity.name := by
  constructor
  · intro h
    have hname : verbosity.name = s := by simpa using List.find?_some h
    exact hname.symm
  · rintro rfl
    cases verbosity <;> rfl

/-- What a person writes is looked up among the names in a file, once it is plain. -/
theorem Format.parse?_eq (value : String) :
    Format.parse? value = Format.ofName? (plainName value) := by
  unfold Format.parse?
  split
  case h_1 htext => rw [htext]; rfl
  case h_2 hjson => rw [hjson]; rfl
  case h_3 htext hjson =>
    simp [Format.ofName?, Format.all, Format.name, Ne.symm htext, Ne.symm hjson]

/-- What a person writes is looked up among the names in a file, once it is plain. -/
theorem Verbosity.parse?_eq (value : String) :
    Verbosity.parse? value = Verbosity.ofName? (plainName value) := by
  unfold Verbosity.parse?
  split
  case h_1 hquiet => rw [hquiet]; rfl
  case h_2 hnormal => rw [hnormal]; rfl
  case h_3 hverbose => rw [hverbose]; rfl
  case h_4 hdebug => rw [hdebug]; rfl
  case h_5 hquiet hnormal hverbose hdebug =>
    simp [Verbosity.ofName?, Verbosity.all, Verbosity.name, Ne.symm hquiet, Ne.symm hnormal,
      Ne.symm hverbose, Ne.symm hdebug]

theorem Format.name_injective {a b : Format} (h : a.name = b.name) : a = b :=
  Option.some.inj ((ofName?_eq_some_iff.mpr rfl).symm.trans (ofName?_eq_some_iff.mpr h))

theorem Verbosity.name_injective {a b : Verbosity} (h : a.name = b.name) : a = b :=
  Option.some.inj ((ofName?_eq_some_iff.mpr rfl).symm.trans (ofName?_eq_some_iff.mpr h))

namespace Config

open Toml

/-! ### What a document has -/

/-- A document has a value at a key of one of its tables, however the table is written. -/
def Gives (table : Table) (name key : String) (node : Node) : Prop :=
  ∃ origin entries, table.Has name (.table origin entries) ∧ Table.Has entries key node

/-- What stands at the two keys of the root that the configuration has, is a table. -/
def HasTables (table : Table) : Prop :=
  ∀ name ∈ ["greeting", "output"], ∀ node, table.Has name node →
    ∃ origin entries, node = .table origin entries

/-- Whether there are only tables at the two keys, tested entry by entry. -/
def hasTables (table : Table) : Bool :=
  table.all fun (key, node) =>
    match node with
    | .table _ _ => true
    | _ => key.name ∉ ["greeting", "output"]

theorem hasTables_iff {table : Table} : hasTables table = true ↔ HasTables table := by
  unfold hasTables
  rw [List.all_eq_true]
  constructor
  · rintro h name hname node ⟨key, hmem, rfl⟩
    have hentry := h _ hmem
    cases node with
    | table origin entries => exact ⟨origin, entries, rfl⟩
    | _ => exact absurd hname (by simpa using hentry)
  · rintro h ⟨key, node⟩ hmem
    cases node with
    | table => rfl
    | _ =>
        refine decide_eq_true fun hname => ?_
        obtain ⟨_, _, hnode⟩ := h key.name hname _ ⟨key, hmem, rfl⟩
        cases hnode

instance (table : Table) : Decidable (HasTables table) :=
  decidable_of_iff _ hasTables_iff

/-- A value that is a text. -/
def IsText (node : Node) (s : String) : Prop := ∃ span, node = .scalar span (.text s)

/-- A table or an array with nothing in it. -/
inductive IsEmpty : Node → Prop where
  | table (origin : Origin) : IsEmpty (.table origin [])
  | array (span : Span) : IsEmpty (.array span [])
  | tables : IsEmpty (.tables [])

/-- A value that is a name: a text, or a table with the name as its only key and with
nothing below it. -/
inductive IsName : Node → String → Prop where
  | text {node : Node} {s : String} (htext : IsText node s) : IsName node s
  | key (origin : Origin) (key : Key) {below : Node} (hempty : IsEmpty below) :
      IsName (.table origin [(key, below)]) key.name

/-- A document whose values for the four fields are all usable. -/
structure Fits (table : Table) : Prop where
  name : ∀ node, Gives table "greeting" "name" node → ∃ s, IsText node s
  message : ∀ node, Gives table "greeting" "message" node → ∃ s, IsText node s
  format : ∀ node, Gives table "output" "format" node → ∃ format : Format, IsName node format.name
  verbosity : ∀ node, Gives table "output" "verbosity" node →
    ∃ verbosity : Verbosity, IsName node verbosity.name

/-- A field is what the document gives it, and its default if the document gives it nothing. -/
structure Settles {α : Type} (table : Table) (name key : String) (means : Node → α → Prop)
    (default value : α) : Prop where
  given : ∀ node, Gives table name key node → means node value
  absent : (∀ node, ¬Gives table name key node) → value = default

/-- A configuration whose four fields are what the document gives them, or their defaults. -/
structure Describes (table : Table) (config : Config) : Prop where
  name : Settles table "greeting" "name" IsText "siris web framework" config.greeting.name
  message : Settles table "greeting" "message" IsText "Hello" config.greeting.message
  format : Settles table "output" "format" (fun node format => IsName node format.name)
    Format.text config.output.format
  verbosity : Settles table "output" "verbosity"
    (fun node verbosity => IsName node verbosity.name) Verbosity.normal config.output.verbosity

/-- With distinct keys, what a document has is what is found by looking it up. -/
theorem gives_iff {table : Table} (htable : table.Distinct) {name key : String} {node : Node} :
    Gives table name key node ↔ ∃ origin entries,
      table.get? name = some (.table origin entries) ∧ Table.get? entries key = some node := by
  constructor
  · rintro ⟨origin, entries, hentries, hnode⟩
    have hfound := (Table.has_iff_get? htable.keys).mp hentries
    have hdistinct : Table.Distinct entries := htable.of_table hfound
    exact ⟨origin, entries, hfound, (Table.has_iff_get? hdistinct.keys).mp hnode⟩
  · rintro ⟨origin, entries, hfound, hnode⟩
    have hdistinct : Table.Distinct entries := htable.of_table hfound
    exact ⟨origin, entries, (Table.has_iff_get? htable.keys).mpr hfound,
      (Table.has_iff_get? hdistinct.keys).mpr hnode⟩

/-! ### Values -/

theorem textOf?_eq_some_iff {node : Node} {s : String} :
    textOf? node = some s ↔ IsText node s := by
  unfold textOf? IsText
  split <;> simp_all

theorem belowName?_eq_none_iff {node : Node} : belowName? node = none ↔ IsEmpty node := by
  constructor
  · intro h
    unfold belowName? at h
    split at h
    case h_1 => exact .table _
    case h_3 => exact .array _
    case h_5 => exact .tables
    all_goals cases h
  · rintro ⟨⟩ <;> rfl

/-- A value names a choice if it is the choice's name. -/
theorem choiceOf?_eq_some_iff {α : Type} {ofName? : String → Option α} {name : α → String}
    (hname : ∀ s choice, ofName? s = some choice ↔ s = name choice) {node : Node} {choice : α} :
    choiceOf? ofName? node = some choice ↔ IsName node (name choice) := by
  constructor
  · intro h
    unfold choiceOf? at h
    split at h
    case h_1 s =>
      rw [← (hname s choice).mp h]
      exact .text ⟨_, rfl⟩
    case h_2 key below =>
      split at h
      case isTrue hbelow =>
        rw [← (hname _ choice).mp h]
        exact .key _ _ (belowName?_eq_none_iff.mp (Option.isNone_iff_eq_none.mp hbelow))
      case isFalse => cases h
    case h_3 => cases h
  · intro h
    generalize hs : name choice = s at h
    cases h with
    | text htext =>
        obtain ⟨span, rfl⟩ := htext
        exact (hname s choice).mpr hs.symm
    | key origin key hempty =>
        simp only [choiceOf?, belowName?_eq_none_iff.mpr hempty, Option.isNone_none, if_true]
        exact (hname key.name choice).mpr hs.symm

theorem exists_decodeText_iff {fallback : Span} {node : Node} :
    (∃ s, decodeText fallback node = .ok s) ↔ ∃ s, IsText node s := by
  simp only [decodeText_ok_iff, textOf?_eq_some_iff]

theorem exists_decodeChoice_iff {α : Type} {ofName? : String → Option α} {names : List String}
    {name : α → String} (hname : ∀ s choice, ofName? s = some choice ↔ s = name choice)
    {fallback : Span} {node : Node} :
    (∃ choice, decodeChoice ofName? names fallback node = .ok choice) ↔
      ∃ choice, IsName node (name choice) := by
  simp only [decodeChoice_ok_iff, choiceOf?_eq_some_iff hname]

/-! ### Tables -/

section

variable {ρ : Type} {fields : List (Field ρ)}

theorem exists_map_ok_iff {ε α β : Type} {result : Except ε α} {f : α → β} :
    (∃ b, result.map f = .ok b) ↔ ∃ a, result = .ok a := by
  cases result <;> simp [Except.map]

/-- A table is accepted if every value is that stands at the key of a field. -/
theorem putEntries_ok_iff (usable : String → Node → Prop)
    (hfields : ∀ field ∈ fields, ∀ place node record,
      (∃ result, field.put place node record = .ok result) ↔ usable field.key node)
    {table : Table} {record : ρ} :
    (∃ result, putEntries fields table record = .ok result) ↔
      ∀ field ∈ fields, ∀ node, table.Has field.key node → usable field.key node := by
  induction table generalizing record with
  | nil => simp [putEntries, Table.Has]
  | cons entry more ih =>
      obtain ⟨key, node⟩ := entry
      have hmore : (∀ field ∈ fields, ∀ other, Table.Has ((key, node) :: more) field.key other →
            usable field.key other) ↔
          (∀ field ∈ fields, field.key = key.name → usable field.key node) ∧
            ∀ field ∈ fields, ∀ other, Table.Has more field.key other →
              usable field.key other := by
        simp only [Table.has_cons]
        constructor
        · intro h
          exact ⟨fun field hfield hkey => h field hfield node (Or.inl ⟨hkey.symm, rfl⟩),
            fun field hfield other hother => h field hfield other (Or.inr hother)⟩
        · rintro ⟨hhere, hlater⟩ field hfield other (⟨hkey, rfl⟩ | hother)
          · exact hhere field hfield hkey.symm
          · exact hlater field hfield other hother
      rw [hmore]
      unfold putEntries
      split
      case h_1 field hfind =>
        have hmem : field ∈ fields := List.mem_of_find?_eq_some hfind
        have hkey : field.key = key.name := by simpa using List.find?_some hfind
        have hput := hfields field hmem key.span node record
        split
        case h_1 next hnext =>
          have husable : usable field.key node := hput.mp ⟨next, hnext⟩
          rw [ih]
          refine ⟨fun h => ⟨fun other _ hother => ?_, h⟩, fun h => h.2⟩
          rw [hother, ← hkey]
          exact husable
        case h_2 misfit hmisfit =>
          rw [hmisfit] at hput
          refine iff_of_false (by simp) fun h => ?_
          obtain ⟨_, hok⟩ := hput.mpr (h.1 field hmem hkey)
          cases hok
      case h_2 hfind =>
        have hnone : ∀ field ∈ fields, field.key ≠ key.name := by
          simpa using List.find?_eq_none.mp hfind
        have hhere : ∀ field ∈ fields, field.key = key.name → usable field.key node :=
          fun field hfield hkey => absurd hkey (hnone field hfield)
        rw [and_iff_right hhere, ← @ih record]
        split
        case h_1 _ _ hput => simp [hput]
        case h_2 _ hput => simp [hput]

end

theorem greetingFields_usable : ∀ field ∈ greetingFields, ∀ place node record,
    (∃ result, field.put place node record = .ok result) ↔ ∃ s, IsText node s := by
  intro field hfield place node record
  rcases List.mem_pair.mp hfield with rfl | rfl
  · exact exists_map_ok_iff.trans exists_decodeText_iff
  · exact exists_map_ok_iff.trans exists_decodeText_iff

/-- A value that a field of the output can take. -/
def NamesChoice (key : String) (node : Node) : Prop :=
  (key = "format" → ∃ format : Format, IsName node format.name) ∧
    (key = "verbosity" → ∃ verbosity : Verbosity, IsName node verbosity.name)

theorem outputFields_usable : ∀ field ∈ outputFields, ∀ place node record,
    (∃ result, field.put place node record = .ok result) ↔ NamesChoice field.key node := by
  intro field hfield place node record
  rcases List.mem_pair.mp hfield with rfl | rfl
  · refine exists_map_ok_iff.trans
      ((exists_decodeChoice_iff fun _ _ => Format.ofName?_eq_some_iff).trans ?_)
    simp [NamesChoice]
  · refine exists_map_ok_iff.trans
      ((exists_decodeChoice_iff fun _ _ => Verbosity.ofName?_eq_some_iff).trans ?_)
    simp [NamesChoice]

theorem decodeGreeting_ok_iff {origin : Origin} {entries : Table} {place : Span} :
    (∃ result, decodeRecord greetingFields .greeting {} place (.table origin entries) =
      .ok result) ↔
      ∀ key ∈ ["name", "message"], ∀ node, entries.Has key node → ∃ s, IsText node s := by
  refine (putEntries_ok_iff (fun _ node => ∃ s, IsText node s) greetingFields_usable).trans ?_
  simp [greetingFields]

theorem decodeOutput_ok_iff {origin : Origin} {entries : Table} {place : Span} :
    (∃ result, decodeRecord outputFields .output {} place (.table origin entries) =
      .ok result) ↔
      (∀ node, entries.Has "format" node → ∃ format : Format, IsName node format.name) ∧
        ∀ node, entries.Has "verbosity" node →
          ∃ verbosity : Verbosity, IsName node verbosity.name := by
  refine (putEntries_ok_iff NamesChoice outputFields_usable).trans ?_
  simp [outputFields, NamesChoice]

/-! ### Documents -/

/-- A document is accepted if its two tables are. -/
theorem putTables_ok_iff {table : Table} {config : Config} :
    (∃ result, putTables table config = .ok result) ↔
      ∀ entry ∈ table,
        (entry.1.name = "greeting" → ∃ result,
          decodeRecord greetingFields .greeting {} entry.1.span entry.2 = .ok result) ∧
        (entry.1.name = "output" → ∃ result,
          decodeRecord outputFields .output {} entry.1.span entry.2 = .ok result) := by
  induction table generalizing config with
  | nil => simp [putTables]
  | cons entry more ih =>
      obtain ⟨key, node⟩ := entry
      rw [List.forall_mem_cons]
      unfold putTables
      dsimp only
      split
      case h_1 misfit hmisfit =>
        refine iff_of_false (by simp) fun h => ?_
        split at hmisfit
        case isTrue hname =>
          obtain ⟨result, hresult⟩ := h.1.1 hname
          rw [hresult] at hmisfit
          cases hmisfit
        case isFalse =>
          split at hmisfit
          case isTrue hname =>
            obtain ⟨result, hresult⟩ := h.1.2 hname
            rw [hresult] at hmisfit
            cases hmisfit
          case isFalse => cases hmisfit
      case h_2 next here hdecoded =>
        have hhere : (key.name = "greeting" → ∃ result,
              decodeRecord greetingFields .greeting {} key.span node = .ok result) ∧
            (key.name = "output" → ∃ result,
              decodeRecord outputFields .output {} key.span node = .ok result) := by
          split at hdecoded
          case isTrue hname =>
            refine ⟨fun _ => exists_map_ok_iff.mp ⟨_, hdecoded⟩, fun hother => ?_⟩
            rw [hname] at hother
            exact absurd hother (by decide)
          case isFalse hgreeting =>
            refine ⟨fun hname => absurd hname hgreeting, fun hname => ?_⟩
            rw [if_pos hname] at hdecoded
            exact exists_map_ok_iff.mp ⟨_, hdecoded⟩
        rw [and_iff_right hhere, ← @ih next]
        split
        case h_1 _ _ hput => simp [hput]
        case h_2 _ hput => simp [hput]

section

variable {table : Table}

/-- **A document with tables in their places is accepted exactly if it fits.** -/
theorem ofTable_ok_iff (htables : HasTables table) :
    (∃ result, ofTable table = .ok result) ↔ Fits table := by
  refine putTables_ok_iff.trans ⟨fun h => ?_, fun h => ?_⟩
  · have hgreeting : ∀ key ∈ ["name", "message"], ∀ node, Gives table "greeting" key node →
        ∃ s, IsText node s := by
      rintro key hkey node ⟨origin, entries, ⟨found, hmem, hname⟩, hnode⟩
      exact decodeGreeting_ok_iff.mp ((h _ hmem).1 hname) key hkey node hnode
    have houtput : ∀ entries origin, table.Has "output" (.table origin entries) →
        (∀ node, Table.Has entries "format" node → ∃ format : Format, IsName node format.name) ∧
        ∀ node, Table.Has entries "verbosity" node →
          ∃ verbosity : Verbosity, IsName node verbosity.name := by
      rintro entries origin ⟨found, hmem, hname⟩
      exact decodeOutput_ok_iff.mp ((h _ hmem).2 hname)
    refine ⟨hgreeting "name" (by simp), hgreeting "message" (by simp), ?_, ?_⟩
    · rintro node ⟨origin, entries, hentries, hnode⟩
      exact (houtput entries origin hentries).1 node hnode
    · rintro node ⟨origin, entries, hentries, hnode⟩
      exact (houtput entries origin hentries).2 node hnode
  · rintro ⟨key, node⟩ hmem
    refine ⟨fun hname => ?_, fun hname => ?_⟩
    · obtain ⟨origin, entries, rfl⟩ := htables "greeting" (by simp) node ⟨key, hmem, hname⟩
      refine decodeGreeting_ok_iff.mpr fun inner hinner other hother => ?_
      have hgives : Gives table "greeting" inner other :=
        ⟨origin, entries, ⟨key, hmem, hname⟩, hother⟩
      rcases List.mem_pair.mp hinner with rfl | rfl
      · exact h.name other hgives
      · exact h.message other hgives
    · obtain ⟨origin, entries, rfl⟩ := htables "output" (by simp) node ⟨key, hmem, hname⟩
      have hentries : table.Has "output" (.table origin entries) := ⟨key, hmem, hname⟩
      exact decodeOutput_ok_iff.mpr
        ⟨fun other hother => h.format other ⟨origin, entries, hentries, hother⟩,
          fun other hother => h.verbosity other ⟨origin, entries, hentries, hother⟩⟩

/-- A part of a decoded record is settled by what the document gives it. -/
theorem DecodedFrom.settles {ρ α : Type} {fields : List (Field ρ)} {wanted : Wanted}
    {default new : ρ} {name : String} (htable : table.Distinct)
    (htables : ∀ node, table.Has name node → ∃ origin entries, node = .table origin entries)
    (h : DecodedFrom fields wanted default (table.get? name) default new)
    {get : ρ → α} {read : Node → Option α} {key : String} {index : Nat}
    (htakes : Takes get read key fields index) {means : Node → α → Prop}
    (hread : ∀ node value, read node = some value → means node value) :
    Settles table name key means (get default) (get new) := by
  cases hnode : table.get? name with
  | none =>
      rw [hnode] at h
      have hnone : ∀ node, ¬Gives table name key node := by
        intro node hgives
        obtain ⟨origin, entries, hfound, -⟩ := (gives_iff htable).mp hgives
        rw [hnode] at hfound
        cases hfound
      exact ⟨fun node hgives => absurd hgives (hnone node), fun _ => congrArg get h⟩
  | some node =>
      obtain ⟨origin, entries, rfl⟩ := htables node ((Table.has_iff_get? htable.keys).mpr hnode)
      rw [hnode] at h
      obtain ⟨place, unknown, hrecord⟩ := h
      have hsets : Sets read (Table.get? entries key) (get default) (get new) :=
        decodeRecord_sets htakes (htable.of_get? hnode) hrecord
      refine ⟨fun other hgives => ?_, fun hnone => ?_⟩
      · obtain ⟨_, _, hfound, hother⟩ := (gives_iff htable).mp hgives
        rw [hnode] at hfound
        cases hfound
        rw [hother] at hsets
        exact hread other _ hsets
      · cases hother : Table.get? entries key with
        | none =>
            rw [hother] at hsets
            exact hsets
        | some other =>
            exact absurd ((gives_iff htable).mpr ⟨origin, entries, hnode, hother⟩) (hnone other)

/-- **The configuration of a document with tables in their places is what the document gives
its fields**, and the defaults for the others. -/
theorem ofTable_describes (htable : table.Distinct) (htables : HasTables table) {config : Config}
    {unknown : List (List String)} (h : ofTable table = .ok (config, unknown)) :
    Describes table config := by
  obtain ⟨hgreeting, houtput⟩ := putTables_decoded htable.keys h
  have hg := htables "greeting" (by simp)
  have ho := htables "output" (by simp)
  refine ⟨?_, ?_, ?_, ?_⟩
  · exact hgreeting.settles htable hg takes_name fun _ _ => textOf?_eq_some_iff.mp
  · exact hgreeting.settles htable hg takes_message fun _ _ => textOf?_eq_some_iff.mp
  · exact houtput.settles htable ho takes_format fun _ _ =>
      (choiceOf?_eq_some_iff fun _ _ => Format.ofName?_eq_some_iff).mp
  · exact houtput.settles htable ho takes_verbosity fun _ _ =>
      (choiceOf?_eq_some_iff fun _ _ => Verbosity.ofName?_eq_some_iff).mp

end

/-! ### Files -/

/-- A file with a document in it loads as the document is decoded. -/
theorem load_of_document {files : Files} {file : Path} {content : List Char} {table : Table}
    (hfile : files.readText file = .ok content) (hdocument : document content = .ok table) :
    load files file =
      match ofTable table with
      | .error misfit => .error (.invalidConfig file content (.misfit misfit))
      | .ok (config, unknown) =>
        .ok (config, unknown.map (warn file (Text.lines content))) := by
  simp only [load, hfile, parse, ofText, hdocument]
  cases ofTable table <;> rfl

/-- A file that loads is a document that decodes, and the warnings are for its unknown keys. -/
theorem load_ok_cases {files : Files} {path : Path} {config : Config} {warnings : List Warning}
    (h : load files path = .ok (config, warnings)) :
    ∃ content table unknown, files.readText path = .ok content ∧
      document content = .ok table ∧ ofTable table = .ok (config, unknown) ∧
      warnings = unknown.map (warn path (Text.lines content)) := by
  unfold load at h
  cases htext : files.readText path with
  | error error => simp [htext] at h
  | ok content =>
      cases hdocument : document content with
      | error refusal => simp [htext, parse, ofText, hdocument] at h
      | ok table =>
          cases htable : ofTable table with
          | error misfit => simp [htext, parse, ofText, hdocument, htable] at h
          | ok result =>
              simp only [htext, parse, ofText, hdocument, htable] at h
              cases h
              exact ⟨content, table, result.2, rfl, hdocument, htable, rfl⟩

/-- **A file loads exactly if its document fits**, given that there are tables in their places.
Then each field is what the document gives it, or else its default; and a document that does
not fit makes the file invalid. -/
theorem load_iff_fits {files : Files} {file : Path} {content : List Char} {table : Table}
    (hfile : files.readText file = .ok content) (hdocument : document content = .ok table)
    (htables : HasTables table) :
    ((∃ result, load files file = .ok result) ↔ Fits table) ∧
      (∀ config warnings, load files file = .ok (config, warnings) → Describes table config) ∧
      (¬Fits table →
        ∃ misfit, load files file = .error (.invalidConfig file content (.misfit misfit))) := by
  have hload := load_of_document hfile hdocument
  cases hresult : ofTable table with
  | error misfit =>
      have hunfit : ¬Fits table := by
        intro hfits
        obtain ⟨result, hok⟩ := (ofTable_ok_iff htables).mpr hfits
        rw [hresult] at hok
        cases hok
      rw [hresult] at hload
      refine ⟨iff_of_false ?_ hunfit, ?_, fun _ => ⟨misfit, hload⟩⟩
      · rintro ⟨result, hok⟩
        rw [hload] at hok
        cases hok
      · intro config warnings hok
        rw [hload] at hok
        cases hok
  | ok result =>
      obtain ⟨config, unknown⟩ := result
      have hfits : Fits table := (ofTable_ok_iff htables).mp ⟨_, hresult⟩
      rw [hresult] at hload
      refine ⟨iff_of_true ⟨_, hload⟩ hfits, ?_, fun hunfit => absurd hfits hunfit⟩
      intro config' warnings hok
      rw [hload] at hok
      cases hok
      exact ofTable_describes (document_distinct hdocument) htables hresult

/-- A table may be written with dotted keys or between braces, and a name as a table. -/
theorem load_iff_fits_of_notations :
    let content := "output.format.json = \x7b\x7d\ngreeting = \x7bmessage = '', extra = 1\x7d\n".toList
    let files : Files := fun _ => .file (Utf8.encode content)
    let config : Config := ⟨⟨"siris web framework", ""⟩, ⟨.json, .normal⟩⟩
    files.readText (Path.ofString "greeter.toml") = .ok content ∧
      ∃ table, document content = .ok table ∧ HasTables table ∧ Fits table ∧
        Describes table config := by
  intro content files config
  have hfile : files.readText (Path.ofString "greeter.toml") = .ok content := by decide +kernel
  obtain ⟨table, hdocument, htables⟩ : ∃ table ∈ (document content).toOption, HasTables table := by
    decide +kernel
  have hdocument : document content = .ok table := ok_of_mem_toOption hdocument
  obtain ⟨warnings, hload⟩ : ∃ warnings, load files (Path.ofString "greeter.toml") =
      .ok (config, warnings) :=
    ⟨[⟨"extra", Path.ofString "greeter.toml", none, none⟩], by decide +kernel⟩
  obtain ⟨hfits, hdescribes, -⟩ := load_iff_fits hfile hdocument htables
  exact ⟨hfile, table, hdocument, htables, hfits.mp ⟨_, hload⟩, hdescribes _ _ hload⟩

end Config

end Salutation
