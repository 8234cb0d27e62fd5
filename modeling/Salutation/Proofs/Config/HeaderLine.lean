/-
The line of an unknown table.

A table that headers introduce has no line of its own key, and the search helps itself with the
headers: for a key of the root it stops at the first one that names the key's table or a table
below it.  What it compares are characters: the first key has to be followed by a point, or by the
end of what stands between the brackets.  Where the key of a header is bare and no blank comes
before the point, this is the first header whose path starts with the key.

For a key inside a known table the search looks for an assignment only.  There is none for a table
that a header introduces, since no header goes through the key of an assignment, and so the warning
has no line.
-/
import Salutation.Proofs.Config.WarningLine
import Salutation.Proofs.Toml.Growth

namespace Salutation

open Toml Text

namespace Toml

/-! ### Plain headers -/

/-- What stands between the brackets of a header, without spaces at the start. -/
def Header.inside (header : Header) : List Char := skipSpaces (behindBrackets header.span.start)

/-- What stands between the brackets of a header behind a bare first key. -/
def Header.behindFirst (header : Header) : List Char := header.inside.dropWhile isBare

/-- A header of bare keys in single brackets.  Spaces may stand around its keys, but none between
the first key and a point behind it. -/
structure Header.IsBare (header : Header) : Prop where
  element : header.isElement = false
  names : ∀ name ∈ header.path.names, IsBareKey name.toList
  /-- The first key is written without quotes. -/
  unquoted : header.inside.head?.all isBare = true
  /-- Behind the first key stands a point or, perhaps after spaces, the closing bracket. -/
  tight : header.behindFirst.head? = some '.' ∨ (skipSpaces header.behindFirst).head? = some ']'

instance (header : Header) : Decidable header.IsBare :=
  decidable_of_iff (header.isElement = false ∧
      (∀ name ∈ header.path.names, IsBareKey name.toList) ∧
      header.inside.head?.all isBare = true ∧
      (header.behindFirst.head? = some '.' ∨ (skipSpaces header.behindFirst).head? = some ']'))
    ⟨fun h => ⟨h.1, h.2.1, h.2.2.1, h.2.2.2⟩,
      fun h => ⟨h.element, h.names, h.unquoted, h.tight⟩⟩

/-- A statement on a line of its own: an assignment to a single key whose value does not go on to
another line, or a header of bare keys. -/
def Statement.IsOneLine : Statement → Prop
  | .assign a => a.path.parents = [] ∧ (Statement.assign a).innerLines = []
  | .header h => h.IsBare

instance : DecidablePred Statement.IsOneLine := fun s =>
  match s with
  | .assign a => inferInstanceAs (Decidable (a.path.parents = [] ∧ _ = []))
  | .header h => inferInstanceAs (Decidable h.IsBare)

/-- The headers among statements. -/
def headers : List Statement → List Header
  | [] => []
  | .assign _ :: more => headers more
  | .header header :: more => header :: headers more

/-- A header stands in the outline with its path. -/
theorem mem_outline_of_headers {all : List Statement} {header : Header} (h : header ∈ headers all)
    (within : List String) : (header.path.names, Statement.header header) ∈ outline within all := by
  induction all generalizing within with
  | nil => cases h
  | cons first more ih =>
      rw [outline_cons]
      cases first with
      | assign a => exact List.mem_cons_of_mem _ (ih h _)
      | header found =>
          rcases List.mem_cons.mp h with rfl | hlater
          · exact List.mem_cons_self
          · exact List.mem_cons_of_mem _ (ih hlater _)

/-- The statements of a document make its table. -/
theorem assemble_statementsOf {text : List Char} {table : Table} (h : document text = .ok table) :
    assemble (statementsOf text) = .ok table := by
  unfold document at h
  dsimp only at h
  split at h
  case h_1 => cases h
  case h_2 => cases h
  case h_3 hassembled _ =>
    cases h
    exact hassembled

/-- Statements that are read close nothing if each is on a line of its own. -/
theorem closesNothing_of_isOneLine {text : List Char} {all : List Statement} (h : Reads text all)
    (hall : ∀ s ∈ all, s.IsOneLine) : ∀ s ∈ all, s.ClosesNothing := by
  induction h with
  | done => simp
  | blank _ _ ih => exact ih hall
  | comment _ _ _ _ ih => exact ih hall
  | step _ _ _ hfirst _ _ ih =>
      obtain ⟨hone, hmore⟩ := List.forall_mem_cons.mp hall
      refine List.forall_mem_cons.mpr ⟨?_, ih hmore⟩
      rcases statement_cases hfirst with ⟨header, _, _, rfl, -⟩ |
        ⟨a, _, _, _, rfl, -, -, hvalue, -⟩
      · exact hone.element
      · exact ⟨hone.1, value_isWritten hvalue⟩

/-- The path of a header of bare keys starts with the key that is written first. -/
theorem names_of_isBare {header : Header} {rest : List Char} (hbare : header.IsBare)
    (hpath : keyPath? (behindBrackets header.span.start) = .ok (some (header.path, rest))) :
    IsBareKey (header.inside.takeWhile isBare) ∧
      ∃ more, header.path.names = String.ofList (header.inside.takeWhile isBare) :: more := by
  obtain ⟨-, -, c, inside, hinside, -⟩ := keyPath?_takes hpath
  have hc : isBare c = true := by simpa [Header.inside, hinside] using hbare.unquoted
  have hkey : IsBareKey (header.inside.takeWhile isBare) := by
    refine ⟨?_, List.all_eq_true.mpr fun d hd => List.mem_takeWhile_imp hd⟩
    rw [Header.inside, hinside, List.takeWhile_cons_of_pos hc]
    exact List.cons_ne_nil _ _
  have hafter : ∀ d ∈ header.behindFirst.head?, isBare d = false := by
    intro d hd
    have hhead := List.head?_dropWhile_not isBare header.inside
    rw [Header.behindFirst] at hd
    rw [Option.mem_def.mp hd] at hhead
    simpa using hhead
  obtain ⟨more, hnames, -⟩ :=
    keyPath?_first hkey List.takeWhile_append_dropWhile.symm hafter hpath
  exact ⟨hkey, more, hnames⟩

end Toml

namespace Config

/-! ### What the search reads of a plain header -/

/-- Blanks at the end of a text are not at the end of a front part without any. -/
theorem trimEnd_append {front : List Char} (hfront : ∀ c ∈ front, isBlank c = false)
    (back : List Char) : trimEnd (front ++ back) = front ++ trimEnd back := by
  have hreverse : front.reverse.dropWhile isBlank = front.reverse :=
    trimStart_of_not_blank fun c hc => hfront c (List.mem_reverse.mp hc)
  unfold trimEnd
  rw [List.reverse_append, List.dropWhile_append]
  split
  case isTrue hempty => simp [hreverse, List.isEmpty_iff.mp hempty]
  case isFalse => simp

/-- Between the brackets of a bare header the search reads the first key, perhaps with a point
behind it and more. -/
theorem headsTable_of_tight {spaces key after : List Char}
    (hspaces : ∀ c ∈ spaces, isSpace c = true) (hkey : IsBareKey key)
    (hafter : after.head? = some '.' ∨ (skipSpaces after).head? = some ']') :
    headsTable key (trim ((spaces ++ (key ++ after)).takeWhile (· ≠ ']'))) = true := by
  have hfront : (spaces ++ (key ++ after)).takeWhile (· ≠ ']') =
      spaces ++ (key ++ after.takeWhile (· ≠ ']')) := by
    have hspace : ']' ∉ spaces := not_mem_of_all (by decide) hspaces
    have hbare : ']' ∉ key := hkey.not_mem (by decide)
    rw [List.takeWhile_append_of_pos, List.takeWhile_append_of_pos]
    · exact fun c hc => by simpa using ne_of_mem_of_not_mem hc hbare
    · exact fun c hc => by simpa using ne_of_mem_of_not_mem hc hspace
  have htrim : trim (spaces ++ (key ++ after.takeWhile (· ≠ ']'))) =
      key ++ trimEnd (after.takeWhile (· ≠ ']')) := by
    rw [trim, trimStart_append fun c hc => isBlank_of_isSpace (hspaces c hc), hkey.trimStart,
      trimEnd_append fun c hc => isBlank_of_isBare (hkey.isBare hc)]
  rw [hfront, htrim, headsTable_iff]
  rcases hafter with hpoint | hclosing
  · obtain ⟨below, rfl⟩ := List.head?_eq_some_iff.mp hpoint
    refine Or.inr ⟨trimEnd (below.takeWhile (· ≠ ']')), ?_⟩
    have hpoint : ∀ c ∈ ['.'], isBlank c = false := List.forall_mem_singleton.mpr (by decide)
    rw [List.takeWhile_cons_of_pos (by decide)]
    exact congrArg (key ++ ·) (trimEnd_append hpoint (below.takeWhile (· ≠ ']')))
  · obtain ⟨more, hmore⟩ := List.head?_eq_some_iff.mp hclosing
    obtain ⟨blanks, hblanks, rfl⟩ := exists_spaces hmore
    rw [takeWhile_of_closing (not_mem_of_all (by decide) hblanks)]
    have hempty : trimEnd blanks = [] := by
      simpa [trimEnd] using fun c hc => isBlank_of_isSpace (hblanks c hc)
    exact Or.inl (by rw [hempty, List.append_nil])

/-- The line of a bare header names its first key, perhaps with a point behind it and more. -/
theorem headsTable_of_isBare {text spaces next line : List Char} {more : List (List Char)}
    {header : Header} (hspaces : ∀ c ∈ spaces, isSpace c = true)
    (h : statement text = .ok (.header header, next))
    (hlines : lines (spaces ++ text) = line :: more) (hbare : header.IsBare) :
    ∃ name, headerText? (trimStart line) = some name ∧ ∀ key, IsBareKey key →
      [String.ofList key] <+: header.path.names → headsTable key name = true := by
  rcases statement_cases h with
    ⟨_, rest, after, hsame, hhead, hstart, hpath, hline⟩ | ⟨_, _, _, _, hsame, -⟩
  · cases hsame
    obtain ⟨first, between, hfirst, hbetween, hname⟩ := lines_of_header hspaces hhead hpath hline
    rw [hlines, List.cons.injEq] at hfirst
    rw [← hfirst.1] at hname
    rw [← hstart] at hpath hbetween
    obtain ⟨hkey, others, hnames⟩ := names_of_isBare hbare hpath
    refine ⟨_, hname, fun key hkey' hstarts => ?_⟩
    rw [hnames, List.cons_prefix_cons, String.ofList_inj] at hstarts
    obtain ⟨blanks, hblanks, hwhole⟩ : ∃ blanks, (∀ c ∈ blanks, isSpace c = true) ∧
        behindBrackets header.span.start = blanks ++ header.inside := exists_spaces rfl
    have hsplit : behindBrackets header.span.start =
        blanks ++ (header.inside.takeWhile isBare ++ header.behindFirst) := by
      rw [hwhole, Header.behindFirst, List.takeWhile_append_dropWhile]
    have htight := headsTable_of_tight hblanks hkey hbare.tight
    rwa [← hsplit, hbetween, takeWhile_closing, ← hstarts.1] at htight
  · cases hsame

/-! ### The search among one-line statements

Where no assignment is to the key, headers are all that the search can stop at, and only for a key
of the root.  What a line names and what its header's path starts with are the same thing then:
`Shows` has the one direction for every header, and the other is what bare headers are for.  So the
search is one over the headers, and each line in between only moves it on.
-/

section

variable {content key : List Char} {table? : Option (List Char)} (hkey : IsBareKey key)
  (htable : ∀ table ∈ table?, IsBareKey table)

include hkey htable

/-- On the line of a bare header the search for a key of the root stops if the header's path starts
with the key.  Otherwise it goes on with the text of the header, which is the table's only if the
header opens the table. -/
theorem keyLineFrom_header {text spaces next line : List Char} {more : List (List Char)}
    {found : Header} (hspaces : ∀ c ∈ spaces, isSpace c = true)
    (h : statement text = .ok (.header found, next))
    (hlines : lines (spaces ++ text) = line :: more) (hshows : Shows line (.header found))
    (hbare : found.IsBare) (number : Nat) (current? : Option (List Char)) :
    ∃ next?, (next? = table? → found.path.names = (table?.map String.ofList).toList) ∧
      keyLineFrom table? key number current? (line :: more) =
        if table? = none ∧ [String.ofList key] <+: found.path.names then some number
        else keyLineFrom table? key (number + 1) next? more := by
  obtain ⟨name, hname, hfirst⟩ := headsTable_of_isBare hspaces h hlines hbare
  obtain ⟨shown, hshown, hnames⟩ := hshows
  obtain rfl : name = shown := Option.some.inj (hname.symm.trans hshown)
  have hheads : headsTable key name = true ↔ [String.ofList key] <+: found.path.names :=
    ⟨(hnames key hkey).2, hfirst key hkey⟩
  refine ⟨some name, ?_, ?_⟩
  · rintro rfl
    exact (hnames _ (htable _ rfl)).1 rfl
  · rw [keyLineFrom]
    simp only [hname, Bool.and_eq_true, decide_eq_true_eq, hheads]

omit htable in
/-- On the line of an assignment to another key the search goes on with the same table. -/
theorem keyLineFrom_assign {line : List Char} {more : List (List Char)} {found : Assignment}
    {within : List String} {current? : Option (List Char)} (hshows : Shows line (.assign found))
    (hopen : current? = table? → within = (table?.map String.ofList).toList)
    (hother : within ++ found.path.names ≠ (table?.map String.ofList).toList ++ [String.ofList key])
    (number : Nat) :
    keyLineFrom table? key number current? (line :: more) =
      keyLineFrom table? key (number + 1) current? more := by
  obtain ⟨hheader, hnames⟩ := hshows
  have hno : ¬(current? = table? ∧ isKeyLine key (trimStart line) = true) := by
    rintro ⟨hcurrent, hline⟩
    exact hother (by rw [hopen hcurrent, hnames key hkey hline])
  rw [keyLineFrom]
  simp only [hheader]
  rw [if_neg (by simpa using hno)]

/-- Where no assignment is to the key, the search for a key of the root stops at the first header
whose path starts with it, and the search for any other key stops nowhere. -/
theorem keyLineFrom_headers {text : List Char} {all : List Statement} (h : Reads text all)
    {number : Nat} {current? : Option (List Char)} {within : List String}
    (hleft : LeftAt content text number)
    (hopen : current? = table? → within = (table?.map String.ofList).toList)
    (hall : ∀ s ∈ all, s.IsOneLine)
    (hfree : ∀ path a, (path, Statement.assign a) ∈ outline within all →
      path ≠ (table?.map String.ofList).toList ++ [String.ofList key]) :
    keyLineFrom table? key number current? (lines text) =
      ((headers all).find? fun header =>
        table? = none ∧ [String.ofList key] <+: header.path.names).map fun header =>
          (placeAt content header.span.start).line := by
  induction h generalizing number current? within with
  | done hend => rw [keyLineFrom_spaces hkey hend]; rfl
  | blank hblank hrest ih =>
      obtain ⟨line, hline, hnothing⟩ := startsWith_of_blank hblank
      rw [keyLineFrom_startsWith hkey hline (by simp [hnothing])]
      exact ih (hleft.next hline) hopen hall hfree
  | comment htext hend hshorter hrest ih =>
      obtain ⟨line, hline, hnothing⟩ := startsWith_of_commentLine htext hend
      rw [keyLineFrom_startsWith hkey hline hnothing]
      exact ih (hleft.next hline) hopen hall hfree
  | @step text more rest c first all htext hcomment hblank hfirst hshorter hrest ih =>
      obtain ⟨line, hshows, hlines, hplace, hnext⟩ := hleft.statement htext hfirst
      obtain ⟨hone, hmore⟩ := List.forall_mem_cons.mp hall
      rw [outline_cons] at hfree
      have hlater := fun path a hmem => hfree path a (List.mem_cons_of_mem _ hmem)
      cases first with
      | header found =>
          obtain ⟨spaces, hspaces, rfl⟩ := exists_spaces htext
          obtain ⟨next?, hbehind, hstep⟩ :=
            keyLineFrom_header hkey htable hspaces hfirst hlines hshows hone number current?
          rw [hlines, hstep, headers, List.find?_cons]
          split
          case isTrue hhere =>
            rw [decide_eq_true hhere]
            exact congrArg some hplace.symm
          case isFalse hhere =>
            rw [decide_eq_false hhere]
            exact ih hnext hbehind hmore hlater
      | assign found =>
          have hinner : (Statement.assign found).innerLines = [] := hone.2
          rw [hinner] at hlines hnext
          rw [hlines, keyLineFrom_assign hkey hshows hopen (hfree _ found List.mem_cons_self)]
          exact ih hnext hopen hmore hlater

/-- The warning for a key that no assignment is to. -/
theorem warn_of_headers {all : List Statement} (hreads : Reads content all)
    (hall : ∀ s ∈ all, s.IsOneLine)
    (hfree : ∀ path a, (path, Statement.assign a) ∈ outline [] all →
      path ≠ (table?.map String.ofList).toList ++ [String.ofList key]) (file : Path) :
    warn file (lines content) ((table?.map String.ofList).toList ++ [String.ofList key]) =
      ⟨String.ofList key, file,
        ((headers all).find? fun header =>
          table? = none ∧ [String.ofList key] <+: header.path.names).map fun header =>
            (placeAt content header.span.start).line,
        suggestion? (table?.map String.ofList) (String.ofList key)⟩ := by
  have hleft : LeftAt content content 1 := ⟨List.suffix_rfl, fun _ => Nat.add_comm _ _⟩
  have hopen : none = table? → [] = (table?.map String.ofList).toList := by
    rintro rfl
    rfl
  rw [warn_path file _ table? (hkey.not_mem (by decide)),
    keyLineFrom_headers hkey htable hreads hleft hopen hall hfree]

end

/-! ### Unknown tables -/

/-- A table that a header opens has a value at its first key. -/
theorem mem_names_of_opened {table inner : Table} {name : String} {more : List String}
    (h : table.opened? (name :: more) = some inner) : name ∈ table.names := by
  obtain ⟨below, hbelow, -⟩ := Option.bind_eq_some_iff.mp h
  obtain ⟨node, hnode, -⟩ := Option.bind_eq_some_iff.mp hbelow
  obtain ⟨key, rfl, hmem⟩ := Table.exists_of_get? hnode
  exact List.mem_map_of_mem hmem

/-- Without arrays of tables a header's second key is in the table at its first. -/
theorem gives_of_opened {table inner : Table} (hflat : table.IsFlat) {name key : String}
    {more : List String} (h : table.opened? (name :: key :: more) = some inner) :
    ∃ node, Gives table name key node := by
  obtain ⟨below, hbelow, hinner⟩ := Option.bind_eq_some_iff.mp h
  obtain ⟨node, hnode, hopened⟩ := Option.bind_eq_some_iff.mp hbelow
  obtain ⟨found, hfound, -⟩ := Option.bind_eq_some_iff.mp hinner
  obtain ⟨value, hvalue, -⟩ := Option.bind_eq_some_iff.mp hfound
  obtain ⟨first, hname, hmem⟩ := Table.exists_of_get? hnode
  obtain ⟨second, hkey, hentry⟩ := Table.exists_of_get? hvalue
  cases node with
  | scalar | array => cases hopened
  | tables elements => exact absurd hnode (hflat name elements)
  | table origin entries =>
      have hentries : entries = below := by
        cases origin with
        | inline => cases hopened
        | _ => exact Option.some.inj hopened
      rw [hentries] at hmem
      exact ⟨value, origin, below, ⟨first, hmem, hname⟩, ⟨second, hentry, hkey⟩⟩

section

variable {all : List Statement} {table : Table} {header : Header} (hall : ∀ s ∈ all, s.ClosesNothing)
  (h : assemble all = .ok table) (hheader : header ∈ headers all)

include hall h hheader

/-- The first key of a header is among the unknown keys unless it is known. -/
theorem mem_unknownKeys_of_header {name : String} (hstarts : [name] <+: header.path.names)
    (hunknown : isKnown [name] = false) : [name] ∈ unknownKeys table := by
  obtain ⟨inner, hinner⟩ := opened_of_header hall h (mem_outline_of_headers hheader [])
  obtain ⟨more, hmore⟩ := hstarts
  rw [← hmore] at hinner
  exact mem_unknownKeys_of_root (mem_names_of_opened hinner) hunknown

/-- The second key of a header is among the unknown keys if the first is known and it is not. -/
theorem mem_unknownKeys_of_inner_header {name key : String}
    (hstarts : [name, key] <+: header.path.names) (hknown : isKnown [name] = true)
    (hunknown : isKnown [name, key] = false) : [name, key] ∈ unknownKeys table := by
  obtain ⟨inner, hinner⟩ := opened_of_header hall h (mem_outline_of_headers hheader [])
  obtain ⟨more, hmore⟩ := hstarts
  rw [← hmore] at hinner
  obtain ⟨node, hgives⟩ := gives_of_opened (assemble_opens hall h).1 hinner
  exact mem_unknownKeys_of_gives hknown hgives hunknown

/-- No assignment is to the key of a table that a header introduces. -/
theorem ne_of_assign {path found : List String} {a : Assignment}
    (hassign : (found, Statement.assign a) ∈ outline [] all)
    (hstarts : path <+: header.path.names) : found ≠ path := by
  rintro rfl
  exact not_prefix_of_header hall h hassign (mem_outline_of_headers hheader []) hstarts

end

/-- **An unknown table of the root is reported with the line of the first header that is its own
or that of a table below it**, and an unknown table inside a known one is reported without a line.
This is for files without a byte order mark, of one-line statements with headers of bare keys in
which no blank comes between the first key and a point. -/
theorem unknown_table_line {files : Files} {file : Path} {content : List Char} {config : Config}
    {warnings : List Warning} (hfile : files.readText file = .ok content)
    (hload : load files file = .ok (config, warnings)) (hmark : content.head? ≠ some '\uFEFF')
    (hall : ∀ s ∈ statementsOf content, s.IsOneLine) :
    (∀ name first, isKnown [name] = false →
      (headers (statementsOf content)).find? (fun header => [name] <+: header.path.names) =
        some first →
      ⟨name, file, some (placeAt content first.span.start).line, suggestion? none name⟩ ∈
        warnings) ∧
    (∀ name key, isKnown [name] = true → isKnown [name, key] = false →
      (∃ header ∈ headers (statementsOf content), [name, key] <+: header.path.names) →
      ⟨key, file, none, suggestion? (some name) key⟩ ∈ warnings) := by
  obtain ⟨read, table, unknown, hread, hdocument, htable, rfl⟩ := load_ok_cases hload
  obtain rfl : content = read := Except.ok.inj (hfile.symm.trans hread)
  have hreads := reads_of_document hmark hdocument
  have hadds := closesNothing_of_isOneLine hreads hall
  have hassembled := assemble_statementsOf hdocument
  have hreported := putTables_reports htable
  have hbare : ∀ header ∈ headers (statementsOf content), ∀ name ∈ header.path.names,
      IsBareKey name.toList := fun header hmem =>
    (forall_outline hall _ (mem_outline_of_headers hmem [])).names
  refine ⟨fun name first hunknown hfirst => ?_, fun name key hknown hunknown hheader => ?_⟩
  · have hmem := List.mem_of_find?_eq_some hfirst
    have hstarts : [name] <+: first.path.names := by simpa using List.find?_some hfirst
    have hkey := hbare first hmem name (hstarts.subset List.mem_cons_self)
    have hwarn : warn file (lines content) [name] =
        ⟨name, file, some (placeAt content first.span.start).line, suggestion? none name⟩ := by
      have hnone : ∀ table ∈ (none : Option (List Char)), IsBareKey table := by simp
      have hline := warn_of_headers hkey hnone hreads hall (fun path a hassign =>
        ne_of_assign hadds hassembled hmem hassign (by simpa using hstarts)) file
      simpa [hfirst] using hline
    rw [← hwarn]
    exact List.mem_map_of_mem
      (hreported (mem_unknownKeys_of_header hadds hassembled hmem hstarts hunknown))
  · obtain ⟨header, hmem, hstarts⟩ := hheader
    have hname := hbare header hmem name (hstarts.subset List.mem_cons_self)
    have hkey := hbare header hmem key
      (hstarts.subset (List.mem_cons_of_mem _ List.mem_cons_self))
    have hwarn : warn file (lines content) [name, key] =
        ⟨key, file, none, suggestion? (some name) key⟩ := by
      have hsome : ∀ table ∈ some name.toList, IsBareKey table := by simpa using hname
      have hline := warn_of_headers hkey hsome hreads hall (fun path a hassign =>
        ne_of_assign hadds hassembled hmem hassign (by simpa using hstarts)) file
      have hnowhere : (headers (statementsOf content)).find? (fun _ => false) = none :=
        List.find?_eq_none.mpr (by simp)
      simpa [hnowhere] using hline
    rw [← hwarn]
    exact List.mem_map_of_mem
      (hreported (mem_unknownKeys_of_inner_header hadds hassembled hmem hstarts hknown hunknown))

/-- The header of a table below comes before that of the unknown table, and another unknown table
is inside the greeting.  Both headers have blanks in them. -/
theorem unknown_table_line_of_two_tables :
    let content := ("[ outptu.deep\t]\nformat = 'json'\n[greeting]\nname = 'x'\n[outptu]\n" ++
      "[greeting.extra . more]\nx = 1\n").toList
    let file := Path.ofString "greeter.toml"
    ∃ config warnings, load (fun _ => .file (Utf8.encode content)) file = .ok (config, warnings) ∧
      ⟨"outptu", file, some 1, some "output"⟩ ∈ warnings ∧
      ⟨"extra", file, none, none⟩ ∈ warnings := by
  intro content file
  let files : Files := fun _ => .file (Utf8.encode content)
  have hfile : files.readText file = .ok content := by decide +kernel
  obtain ⟨⟨config, warnings⟩, hload⟩ : ∃ result, load files file = .ok result := by
    refine ⟨(⟨⟨"x", "Hello"⟩, {}⟩,
      [⟨"extra", file, none, none⟩, ⟨"outptu", file, some 1, some "output"⟩]), ?_⟩
    decide +kernel
  obtain ⟨hroot, hinside⟩ :=
    unknown_table_line hfile hload (by decide) (by decide +kernel)
  obtain ⟨first, hfirst, hline⟩ : ∃ first ∈ (headers (statementsOf content)).find?
      (fun header => ["outptu"] <+: header.path.names),
      (placeAt content first.span.start).line = 1 := by decide +kernel
  refine ⟨config, warnings, hload, ?_, ?_⟩
  · have hwarned := hroot "outptu" first (by decide +kernel) hfirst
    rw [hline] at hwarned
    exact hwarned
  · exact hinside "greeting" "extra" (by decide +kernel) (by decide +kernel) (by decide +kernel)

/-- A table inside the greeting has a header on the first line, and yet its warning has no line.
Nor has the warning of a table of the root if a byte order mark stands before the header, or a space
before its point. -/
theorem unknown_table_without_line :
    let file := Path.ofString "greeter.toml"
    let loaded (content : String) := load (fun _ => .file (bytesOf content)) file
    let places (content : String) := (headers (statementsOf content.toList)).map fun header =>
      (header.path.names, (placeAt content.toList header.span.start).line)
    (loaded "[greeting.extra]\nx = 1\n" = .ok ({}, [⟨"extra", file, none, none⟩]) ∧
      places "[greeting.extra]\nx = 1\n" = [(["greeting", "extra"], 1)]) ∧
    (loaded "\uFEFF[outptu]\nx = 1\n" = .ok ({}, [⟨"outptu", file, none, some "output"⟩]) ∧
      places "\uFEFF[outptu]\nx = 1\n" = [(["outptu"], 1)]) ∧
    loaded "[outptu . deep]\nx = 1\n" = .ok ({}, [⟨"outptu", file, none, some "output"⟩]) ∧
      places "[outptu . deep]\nx = 1\n" = [(["outptu", "deep"], 1)] := by
  decide +kernel

end Config

end Salutation
