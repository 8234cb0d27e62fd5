/-
What is left of a document, written down.

Deleting the unknown keys of a document is more than a change to a table: what is left can be
written as a document again.  There are at most two tables in it with two keys each, and all
their values fit: texts, names, and tables with one name and nothing below it.  Each of these
has a text that is read as the same value in front of the end of its line, so the lines can be
put together under the headers of the tables.

With that the warnings of a file are told in full: they are those of the unknown keys, one for
each, and without the unknown keys a file loads to the same configuration.
-/
import Salutation.Proofs.Config.Pruning
import Salutation.Proofs.Config.Reload
import Salutation.Proofs.Toml.Outline

namespace Salutation

open Toml

namespace Toml

/-! ### Values on one line -/

/-- A text that is read, in front of the end of its line, as a value like the given one. -/
structure Writes (written : List Char) (node : Node) : Prop where
  skip : ∀ rest, skipSpaces (written ++ rest) = written ++ rest
  value : ∀ rest, ∃ other, Toml.value (written ++ '\n' :: rest) = .ok (other, '\n' :: rest) ∧
    other.Same node

theorem writes_text (span : Span) (s : String) :
    Writes (writeString s.toList) (.scalar span (.text s)) where
  skip := skipSpaces_writeString s.toList
  value rest := by
    refine ⟨_, value_writeString s.toList ('\n' :: rest) (by simp) (by simp), ?_⟩
    rw [String.ofList_toList]
    exact .scalar _

/-- Between braces there may be nothing. -/
theorem members_nothing {read : ValueReader} (fuel : Nat) (rest : List Char) :
    members read fuel ('\x7d' :: rest) = .ok ([], '\x7d' :: rest) := by
  cases fuel with
  | zero => rfl
  | succ fuel =>
      have hpath : keyPath? ('\x7d' :: rest) = .ok none := by
        simp [keyPath?, keyPathFrom?, simpleKey?, skipSpaces, isSpace, isBare, bind, Except.bind,
          pure, Except.pure]
      simp [members, assignment?, hpath, bind, Except.bind, pure, Except.pure]

theorem valueWithin_braces (depth : Nat) (rest : List Char) :
    valueWithin (depth + 1) ('\x7b' :: '\x7d' :: rest) =
      .ok (.table (.inline ⟨'\x7b' :: '\x7d' :: rest, rest⟩) [], rest) := by
  simp [valueWithin, members_nothing, inlineTable, Table.assignAll, skipSpaces, isSpace, bind,
    Except.bind, pure, Except.pure]

theorem valueWithin_brackets (depth : Nat) (rest : List Char) :
    valueWithin (depth + 1) ('[' :: ']' :: rest) =
      .ok (.array ⟨'[' :: ']' :: rest, rest⟩ [], rest) := by
  simp [valueWithin, elements, afterFiller, afterFillerFrom, isSpace, bind, Except.bind, pure,
    Except.pure]

/-- Between braces a bare key may have a value. -/
theorem valueWithin_single {depth : Nat} {name inner : List Char} (hname : IsBareKey name)
    {node : Node} {rest : List Char}
    (hskip : skipSpaces (inner ++ '\x7d' :: rest) = inner ++ '\x7d' :: rest)
    (hread : valueWithin depth (inner ++ '\x7d' :: rest) = .ok (node, '\x7d' :: rest)) :
    ∃ span place, valueWithin (depth + 1)
        ('\x7b' :: (name ++ '=' :: (inner ++ '\x7d' :: rest))) =
      .ok (.table (.inline span) [(⟨String.ofList name, place⟩, node)], rest) := by
  have hnone : ∀ c ∈ ([] : List Char), isSpace c = true := by simp
  have hpath := keyPath?_bare (inner ++ '\x7d' :: rest) hname hnone (c := '=')
    (by decide) (by decide) (by decide)
  rw [List.nil_append] at hpath
  refine ⟨⟨'\x7b' :: (name ++ '=' :: (inner ++ '\x7d' :: rest)), rest⟩,
    ⟨name ++ '=' :: (inner ++ '\x7d' :: rest), '=' :: (inner ++ '\x7d' :: rest)⟩, ?_⟩
  simp [valueWithin, members, assignment?, hpath, hread, hskip, inlineTable, Table.assignAll,
    Table.assign, Table.get?, skipSpaces_cons (show isSpace '\x7d' = false by decide), bind,
    Except.bind, pure, Except.pure]

theorem same_single {here there : Origin} {key other : Key} {a b : Node}
    (hname : key.name = other.name) (h : a.Same b) :
    (Node.table here [(key, a)]).Same (.table there [(other, b)]) := by
  refine .table fun name => ?_
  rw [Table.get?_cons, Table.get?_cons, hname]
  split
  · exact .some h
  · exact .none

/-- A table with one bare key is written between braces. -/
theorem writes_single {origin : Origin} {key : Key} {below : Node} {inner : List Char}
    (hkey : IsBareKey key.name.toList)
    (hskip : ∀ rest, skipSpaces (inner ++ rest) = inner ++ rest)
    (hread : ∀ rest, ∃ other, valueWithin 78 (inner ++ rest) = .ok (other, rest) ∧
      other.Same below) :
    Writes ('\x7b' :: (key.name.toList ++ '=' :: (inner ++ ['\x7d'])))
      (.table origin [(key, below)]) where
  skip rest := skipSpaces_cons (by decide) _
  value rest := by
    obtain ⟨other, hother, hsame⟩ := hread ('\x7d' :: '\n' :: rest)
    obtain ⟨span, place, hvalue⟩ := valueWithin_single hkey (hskip _) hother
    have hname : String.ofList key.name.toList = key.name := String.ofList_toList
    rw [hname] at hvalue
    exact ⟨.table (.inline span) [(⟨key.name, place⟩, other)],
      by simpa [value, nestingLimit] using hvalue, same_single rfl hsame⟩

end Toml

namespace Config

theorem exists_writes_name {node : Node} {s : String} (hname : IsName node s)
    (hs : IsBareKey s.toList) : ∃ written, Writes written node := by
  cases hname with
  | text htext =>
      obtain ⟨span, rfl⟩ := htext
      exact ⟨_, writes_text span s⟩
  | @key origin key below hempty =>
      have hbraces : ∀ rest, skipSpaces (['\x7b', '\x7d'] ++ rest) = ['\x7b', '\x7d'] ++ rest :=
        fun rest => skipSpaces_cons (by decide) _
      have hbrackets : ∀ rest, skipSpaces (['[', ']'] ++ rest) = ['[', ']'] ++ rest :=
        fun rest => skipSpaces_cons (by decide) _
      cases hempty with
      | table =>
          exact ⟨_, writes_single hs hbraces fun rest =>
            ⟨_, valueWithin_braces 77 rest, .table fun _ => .none⟩⟩
      | array =>
          exact ⟨_, writes_single hs hbrackets fun rest =>
            ⟨_, valueWithin_brackets 77 rest, .list rfl rfl .nil⟩⟩
      | tables =>
          exact ⟨_, writes_single hs hbrackets fun rest =>
            ⟨_, valueWithin_brackets 77 rest, .list rfl rfl .nil⟩⟩

/-! ### Lines and sections -/

/-- An assignment of a value like that of an entry, to the entry's key. -/
def Assigns (assignment : Assignment) (entry : Key × Node) : Prop :=
  assignment.path.parents = [] ∧ assignment.path.last.name = entry.1.name ∧
    assignment.value.Same entry.2

/-- A section for the table at a key, with an assignment for each entry of the table. -/
def Opens (part : Section) (entry : Key × Node) : Prop :=
  part.header.path.parents = [] ∧ part.header.isElement = false ∧
    part.header.path.last.name = entry.1.name ∧
    ∃ origin entries, entry.2 = .table origin entries ∧ List.Forall₂ Assigns part.body entries

/-- An entry that can be written on a line. -/
def IsWritable (entry : Key × Node) : Prop :=
  IsBareKey entry.1.name.toList ∧ ∃ written, Writes written entry.2

theorem exists_body {entries : Table} (h : ∀ entry ∈ entries, IsWritable entry) :
    ∃ text, ∀ rest all, Reads rest all → ∃ body : List Assignment,
      Reads (text ++ rest) (body.map .assign ++ all) ∧ List.Forall₂ Assigns body entries := by
  induction entries with
  | nil => exact ⟨[], fun rest all hrest => ⟨[], hrest, .nil⟩⟩
  | cons entry more ih =>
      obtain ⟨⟨hkey, written, hwritten⟩, hmore⟩ := List.forall_mem_cons.mp h
      obtain ⟨text, htext⟩ := ih hmore
      have hspace : ∀ c ∈ [' '], isSpace c = true := by simp [isSpace]
      refine ⟨entry.1.name.toList ++ ([' '] ++ '=' :: ([' '] ++ (written ++ '\n' :: text))),
        fun rest all hrest => ?_⟩
      obtain ⟨body, hbody, hassigns⟩ := htext rest all hrest
      obtain ⟨node, hvalue, hsame⟩ := hwritten.value (text ++ rest)
      have hskip : skipSpaces ([' '] ++ (written ++ '\n' :: (text ++ rest))) =
          written ++ '\n' :: (text ++ rest) := by
        rw [skipSpaces_append hspace, hwritten.skip]
      rw [← hskip] at hvalue
      have hend : lineEnd ('\n' :: (text ++ rest)) = .ok (text ++ rest) := rfl
      obtain ⟨span, hreads⟩ :=
        reads_assignment hkey hspace hvalue hend (by simp; omega) hbody
      refine ⟨⟨⟨[], ⟨String.ofList entry.1.name.toList, span⟩⟩, node⟩ :: body, ?_,
        .cons ⟨rfl, String.ofList_toList, hsame⟩ hassigns⟩
      simpa using hreads

theorem names_of_assigns {body : List Assignment} {entries : Table}
    (h : List.Forall₂ Assigns body entries) : body.map (·.path.last.name) = entries.names := by
  induction h with
  | nil => rfl
  | cons hfirst _ ih =>
      rw [List.map_cons, ih, hfirst.2.1]
      rfl

theorem single_of_assigns {body : List Assignment} {entries : Table}
    (h : List.Forall₂ Assigns body entries) : ∀ a ∈ body, a.path.parents = [] := by
  induction h with
  | nil => simp
  | cons hfirst _ ih => exact List.forall_mem_cons.mpr ⟨hfirst.1, ih⟩

theorem split_assignments (body : List Assignment) (all : List Statement) :
    Section.split (body.map .assign ++ all) =
      (body ++ (Section.split all).1, (Section.split all).2) := by
  induction body with
  | nil => rfl
  | cons first more ih => simp [Section.split, ih]

theorem exists_sections {table : Table} (h : ∀ entry ∈ table, IsBareKey entry.1.name.toList ∧
      ∃ origin entries, entry.2 = .table origin entries ∧ ∀ inner ∈ entries, IsWritable inner) :
    ∃ text all, Reads text all ∧ text.head? ≠ some '\uFEFF' ∧ (∀ s ∈ all, s.IsSingle) ∧
      (Section.split all).1 = [] ∧ List.Forall₂ Opens (Section.split all).2 table := by
  induction table with
  | nil => exact ⟨[], [], .done rfl, by simp, by simp, rfl, .nil⟩
  | cons entry more ih =>
      obtain ⟨⟨hkey, origin, entries, hnode, hentries⟩, hmore⟩ := List.forall_mem_cons.mp h
      obtain ⟨text, all, hreads, -, hsingle, hbody, hparts⟩ := ih hmore
      obtain ⟨lines, hlines⟩ := exists_body hentries
      obtain ⟨body, hbodyReads, hassigns⟩ := hlines text all hreads
      have hend : lineEnd ('\n' :: (lines ++ text)) = .ok (lines ++ text) := rfl
      obtain ⟨span, place, hheader⟩ := reads_header hkey hend (Nat.le_succ _) hbodyReads
      have hsplit := split_assignments body all
      refine ⟨_, _, hheader, by simp, ?_, by simp [Section.split], ?_⟩
      · intro s hs
        rcases List.mem_cons.mp hs with rfl | hs
        · exact ⟨rfl, rfl⟩
        · rcases List.mem_append.mp hs with hs | hs
          · obtain ⟨a, ha, rfl⟩ := List.mem_map.mp hs
            exact (single_of_assigns hassigns a ha)
          · exact hsingle s hs
      · simp only [Section.split, hsplit, hbody, List.append_nil]
        exact .cons ⟨rfl, rfl, String.ofList_toList, origin, entries, hnode, hassigns⟩ hparts

/-! ### The table of what is written

Sections and the entries of a table are compared one by one and in order.  What is written then has
the same paths as the table, and since no key stands in it twice, reading it meets no key that is
there already.
-/

theorem Table.Same.of_forall₂ {as bs : Table}
    (h : List.Forall₂ (fun a b => a.1.name = b.1.name ∧ a.2.Same b.2) as bs) : as.Same bs := by
  induction h with
  | nil => exact fun _ => .none
  | @cons a b as bs hfirst _ ih =>
      obtain ⟨key, node⟩ := a
      obtain ⟨other, value⟩ := b
      intro name
      rw [Table.get?_cons, Table.get?_cons, hfirst.1]
      split
      · exact .some hfirst.2
      · exact ih name

theorem Assigns.entry {body : List Assignment} {entries : Table}
    (h : List.Forall₂ Assigns body entries) :
    List.Forall₂ (fun a b => a.1.name = b.1.name ∧ a.2.Same b.2)
      (body.map Assignment.entry) entries := by
  rw [List.forall₂_map_left_iff]
  exact h.imp fun _ _ hassigns => hassigns.2

theorem Opens.entry {parts : List Section} {table : Table} (h : List.Forall₂ Opens parts table) :
    List.Forall₂ (fun a b => a.1.name = b.1.name ∧ a.2.Same b.2)
      (parts.map Section.entry) table := by
  rw [List.forall₂_map_left_iff]
  refine h.imp fun part entry hopens => ?_
  obtain ⟨-, -, hname, origin, entries, hnode, hassigns⟩ := hopens
  rw [hnode]
  exact ⟨hname, .table (Table.Same.of_forall₂ (Assigns.entry hassigns))⟩

/-- The paths of what is written are those of the keys. -/
theorem paths_of_opens {parts : List Section} {table : Table}
    (h : List.Forall₂ Opens parts table) (hknown : ∀ entry ∈ table, isKnown [entry.1.name] = true) :
    (parts.flatMap fun part => [part.header.path.last.name] ::
      part.body.map fun a => [part.header.path.last.name, a.path.last.name]) =
        visitedKeys table := by
  unfold visitedKeys
  induction h with
  | nil => rfl
  | @cons part entry parts table hfirst _ ih =>
      obtain ⟨key, node⟩ := entry
      obtain ⟨hhere, hmore⟩ := List.forall_mem_cons.mp hknown
      obtain ⟨-, -, hname, origin, entries, hnode, hassigns⟩ := hfirst
      have hpaths : (part.body.map fun a => [key.name, a.path.last.name]) =
          (Table.names entries).map ([key.name, ·]) := by
        rw [← names_of_assigns hassigns, List.map_map]
        rfl
      cases hnode
      rw [List.flatMap_cons, List.flatMap_cons, ih hmore, hname]
      dsimp only
      rw [if_pos hhere, hpaths]
      rfl

/-- **A table of known tables whose entries can be written is read from some text.** -/
theorem exists_text {table : Table} (htable : table.Distinct)
    (hknown : ∀ entry ∈ table, isKnown [entry.1.name] = true)
    (hentries : ∀ entry ∈ table, ∃ origin entries, entry.2 = .table origin entries ∧
      ∀ inner ∈ entries, IsWritable inner) :
    ∃ text written, document text = .ok written ∧ written.Same table := by
  have hsections : ∀ entry ∈ table, IsBareKey entry.1.name.toList ∧
      ∃ origin entries, entry.2 = .table origin entries ∧ ∀ inner ∈ entries, IsWritable inner := by
    intro entry hentry
    refine ⟨?_, hentries entry hentry⟩
    have hname := isKnown_root.mp (hknown entry hentry)
    simp only [List.mem_cons, List.not_mem_nil, or_false] at hname
    rcases hname with hname | hname <;> (rw [hname]; decide)
  obtain ⟨text, all, hreads, hmark, hsingle, hbody, hparts⟩ := exists_sections hsections
  have hnodup : ((outline [] all).map (·.1)).Nodup := by
    rw [map_fst_outline_single hsingle, hbody, paths_of_opens hparts hknown]
    exact visitedKeys_nodup htable
  refine ⟨text, singleTable all, document_of_reads hmark hreads (assemble_single hsingle hnodup), ?_⟩
  rw [singleTable, hbody]
  exact Table.Same.of_forall₂ (Opens.entry hparts)

/-! ### What is left of a document -/

/-- A value that a document gives a known key can be written, given that the document fits. -/
theorem isWritable_of_fits {table : Table} (hfits : Fits table) {name : String} {key : Key}
    {node : Node} (hname : isKnown [name] = true) (hkey : isKnown [name, key.name] = true)
    (hgives : Gives table name key.name node) : IsWritable (key, node) := by
  have htext : (∃ s, IsText node s) → ∃ written, Writes written node := by
    rintro ⟨s, span, rfl⟩
    exact ⟨_, writes_text span s⟩
  have hroot := isKnown_root.mp hname
  simp only [List.mem_cons, List.not_mem_nil, or_false] at hroot
  rcases hroot with rfl | rfl
  · have hfield := isKnown_greeting.mp hkey
    simp only [List.mem_cons, List.not_mem_nil, or_false] at hfield
    unfold IsWritable
    dsimp only
    rcases hfield with hfield | hfield
    · rw [hfield] at hgives ⊢
      exact ⟨by decide, htext (hfits.name node hgives)⟩
    · rw [hfield] at hgives ⊢
      exact ⟨by decide, htext (hfits.message node hgives)⟩
  · have hfield := isKnown_output.mp hkey
    simp only [List.mem_cons, List.not_mem_nil, or_false] at hfield
    unfold IsWritable
    dsimp only
    rcases hfield with hfield | hfield
    · rw [hfield] at hgives ⊢
      obtain ⟨format, hformat⟩ := hfits.format node hgives
      exact ⟨by decide, exists_writes_name hformat (by cases format <;> decide)⟩
    · rw [hfield] at hgives ⊢
      obtain ⟨verbosity, hverbosity⟩ := hfits.verbosity node hgives
      exact ⟨by decide, exists_writes_name hverbosity (by cases verbosity <;> decide)⟩

/-- What is left of a document that fits, without its unknown keys, can be written down. -/
theorem exists_text_withoutUnknown {table : Table} (htable : table.Distinct)
    (htables : HasTables table) (hfits : Fits table) :
    ∃ text pruned, document text = .ok pruned ∧ pruned.Same (withoutUnknown table) := by
  refine exists_text (withoutUnknown_distinct htable) ?_ ?_
  · intro entry hentry
    obtain ⟨found, hfound, rfl⟩ := List.mem_map.mp hentry
    exact (List.mem_filter.mp hfound).2
  · intro entry hentry
    obtain ⟨⟨key, node⟩, hfound, rfl⟩ := List.mem_map.mp hentry
    obtain ⟨hmem, hknown⟩ := List.mem_filter.mp hfound
    obtain ⟨origin, entries, rfl⟩ := htables key.name (isKnown_root.mp hknown) node ⟨key, hmem, rfl⟩
    refine ⟨origin, _, rfl, fun inner hinner => ?_⟩
    obtain ⟨hinner, hkey⟩ := List.mem_filter.mp hinner
    exact isWritable_of_fits hfits hknown hkey
      ⟨origin, entries, ⟨key, hmem, rfl⟩, ⟨inner.1, hinner, rfl⟩⟩

/-! ### Warnings -/

/-- **A file is warned about once for each unknown key, in order, and needs none of them**: what
is left without them can be written down, and loads to the same configuration and without a
warning, however it is written. -/
theorem load_warns_unknown {files : Files} {file : Path} {content : List Char} {table : Table}
    {config : Config} {warnings : List Warning}
    (hfile : files.readText file = .ok content) (hdocument : document content = .ok table)
    (htables : HasTables table) (hload : load files file = .ok (config, warnings)) :
    warnings = (unknownKeys table).map (warn file (Text.lines content)) ∧
      (unknownKeys table).Nodup ∧
      (∀ path, path ∈ unknownKeys table ↔ isKnown path = false ∧
        ((∃ key ∈ table.names, path = [key]) ∨
          ∃ name key node, isKnown [name] = true ∧ Gives table name key node ∧
            path = [name, key])) ∧
      ofTable (withoutUnknown table) = .ok (config, []) ∧
      (∃ text pruned, document text = .ok pruned ∧ pruned.Same (withoutUnknown table)) ∧
      ∀ (others : Files) (other : Path) (text : List Char) (pruned : Table),
        others.readText other = .ok text → document text = .ok pruned →
          pruned.Same (withoutUnknown table) → load others other = .ok (config, []) := by
  have htable : table.Distinct := document_distinct hdocument
  obtain ⟨unknown, hconfig, hwarnings⟩ : ∃ unknown, ofTable table = .ok (config, unknown) ∧
      warnings = unknown.map (warn file (Text.lines content)) := by
    rw [load_of_document hfile hdocument] at hload
    split at hload
    case h_1 => cases hload
    case h_2 hconfig =>
      cases hload
      exact ⟨_, hconfig, rfl⟩
  have hdescribes : Describes table config := ofTable_describes htable htables hconfig
  have hpruned : ∀ {pruned : Table}, pruned.Distinct → pruned.Same (withoutUnknown table) →
      ofTable pruned = .ok (config, []) := by
    intro pruned hdistinct hsame
    rw [← unknownKeys_of_pruned htable hdistinct htables hsame]
    exact ofTable_of_describes hdistinct (hasTables_of_pruned htable hdistinct htables hsame)
      (hdescribes.of_pruned htable hdistinct htables hsame)
  refine ⟨?_, unknownKeys_nodup htable, fun _ => mem_unknownKeys htables, ?_,
    exists_text_withoutUnknown htable htables hdescribes.fits, ?_⟩
  · rw [hwarnings, putTables_unknown htables hconfig]
  · have hdistinct := withoutUnknown_distinct htable
    exact hpruned hdistinct hdistinct.same
  · intro others other text pruned hother hpruned' hsame
    rw [load_of_document hother hpruned', hpruned (document_distinct hpruned') hsame]
    rfl

/-- Unknown keys of three tables, one of them with a table below it, are left out. -/
theorem load_warns_unknown_of_each_table :
    let content := ("format = 1\ngreeting.name = 'Ada'\ngreeting.nam = 'A'\n" ++
      "[output.format.json]\n[output.colour.name]\nnested = 1\n").toList
    let file := Path.ofString "greeter.toml"
    let files : Files := fun _ => .file (Utf8.encode content)
    let config : Config := ⟨⟨"Ada", "Hello"⟩, ⟨.json, .normal⟩⟩
    ∃ table, document content = .ok table ∧ HasTables table ∧
      unknownKeys table = [["format"], ["greeting", "nam"], ["output", "colour"]] ∧
      load files file = .ok (config, [⟨"format", file, some 1, some "output.format"⟩,
        ⟨"nam", file, none, some "name"⟩, ⟨"colour", file, none, none⟩]) ∧
      ∃ text, load (fun _ => .file (Utf8.encode text)) file = .ok (config, []) := by
  intro content file files config
  have hfile : files.readText file = .ok content := by decide +kernel
  obtain ⟨table, hdocument, htables, hunknown⟩ : ∃ table ∈ (document content).toOption,
      HasTables table ∧
        unknownKeys table = [["format"], ["greeting", "nam"], ["output", "colour"]] := by
    decide +kernel
  have hdocument : document content = .ok table := ok_of_mem_toOption hdocument
  have hload : load files file = .ok (config, [⟨"format", file, some 1, some "output.format"⟩,
      ⟨"nam", file, none, some "name"⟩, ⟨"colour", file, none, none⟩]) := by decide +kernel
  obtain ⟨-, -, -, -, ⟨text, pruned, htext, hsame⟩, hpruned⟩ :=
    load_warns_unknown hfile hdocument htables hload
  have hother : Files.readText (fun _ => .file (Utf8.encode text)) file = .ok text := by
    simp [Files.readText, Files.read]
  exact ⟨table, hdocument, htables, hunknown, hload, text,
    hpruned _ file text pruned hother htext hsame⟩

end Config

end Salutation
