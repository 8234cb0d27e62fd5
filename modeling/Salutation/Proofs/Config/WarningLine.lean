/-
The line of a warning.

The search for a key's line looks at each line by itself, so a line inside a value can be
taken for a key or a header.  That is the only way in which it goes wrong for bare keys:
where no line that starts inside a value reads like a header or like a line of the key, the
header that the search has seen last is that of the section, and a line at which it stops
is one on which a statement starts whose path is the one looked for, or goes on from there.

The induction is on the statements as they are read, together with the lines that are left
and the table that is open in both.
-/
import Salutation.Proofs.Config.KeyPlace
import Salutation.Proofs.Config.Unknown
import Salutation.Proofs.Toml.Suffix

namespace Salutation

open Toml Text

namespace Toml

/-! ### Places -/

/-- The lines that start inside a stretch: one behind each of its line feeds. -/
def Span.innerLines (span : Span) : List (List Char) :=
  ((lines span.start).drop 1).take (span.extract.count '\n')

/-- The lines that start inside the value of a statement. -/
def Statement.innerLines : Statement → List (List Char)
  | .assign a => (a.value.span?.map Span.innerLines).getD []
  | .header _ => []

/-- What is left of the text where a statement starts. -/
def Statement.start : Statement → List Char
  | .assign a => a.path.start
  | .header h => h.span.start

/-- The statements of a document. -/
def statementsOf (text : List Char) : List Statement :=
  let body := skipByteOrderMark text
  (statements (body.length + 1) body).1

theorem innerLines_of_startsWith {written after first rest : List Char}
    (h : StartsWith (written ++ after) first rest) :
    Span.innerLines ⟨written ++ after, after⟩ = (lines rest).take (written.count '\n') := by
  simp [Span.innerLines, Span.extract, h.drop_lines]

/-- The line of a place, counted from the end of the text. -/
theorem placeAt_line {text rest : List Char} (hrest : rest ≠ []) (h : rest <:+ text) :
    (placeAt text rest).line + rest.count '\n' = text.count '\n' + 1 := by
  obtain ⟨before, rfl⟩ := h
  have hlength : 0 < rest.length := List.length_pos_of_ne_nil hrest
  have hindex : (before ++ rest).length - rest.length = before.length := by simp
  have hsettled : min before.length ((before ++ rest).length - 1) = before.length := by
    rw [List.length_append]
    omega
  simp only [placeAt, hindex, hsettled, List.take_left, List.count_append]
  omega

/-- A document without a byte order mark is what its statements make. -/
theorem reads_of_document {text : List Char} {table : Table} (hmark : text.head? ≠ some '\uFEFF')
    (h : document text = .ok table) : Reads text (statementsOf text) := by
  have hskip := skipByteOrderMark_eq hmark
  have hstuck : (statements (text.length + 1) text).2 = none := by
    unfold document at h
    rw [hskip] at h
    dsimp only at h
    split at h
    case h_1 => cases h
    case h_2 => cases h
    case h_3 hstuck => exact hstuck
  rw [statementsOf, hskip]
  exact reads_of_statements (Nat.lt_succ_self _) (Prod.ext rfl hstuck)

end Toml

namespace Config

/-! ### One statement -/

/-- What the search reads at the start of a line agrees with the statement there. -/
def Shows (line : List Char) : Statement → Prop
  | .header header => ∃ name, headerText? (trimStart line) = some name ∧
      ∀ key, IsBareKey key → (name = key → header.path.names = [String.ofList key]) ∧
        (headsTable key name = true → [String.ofList key] <+: header.path.names)
  | .assign assignment => headerText? (trimStart line) = none ∧
      ∀ key, IsBareKey key → isKeyLine key (trimStart line) = true →
        assignment.path.names = [String.ofList key]

/-- The lines of a statement: the one that it starts on, and those that start inside it. -/
theorem lines_of_statement {text spaces next : List Char} {first : Statement}
    (hspaces : ∀ c ∈ spaces, isSpace c = true) (hskip : skipSpaces text = text)
    (h : statement text = .ok (first, next)) :
    first.start = text ∧
      (next ≠ [] → text.count '\n' = first.innerLines.length + 1 + next.count '\n') ∧
      ∃ line, Shows line first ∧
        lines (spaces ++ text) = line :: (first.innerLines ++ lines next) := by
  rcases statement_cases h with ⟨header, more, line, rfl, hhead, hstart, hpath, hline⟩ |
    ⟨assignment, rest, after, line, rfl, hhead, hpath, hvalue, hline⟩
  · obtain ⟨brackets, hbrackets, htext, -⟩ := exists_brackets hhead
    have hopen : TakesWithinLine text (behindBrackets text) := ⟨brackets, htext, hbrackets⟩
    have hclosing : TakesWithinLine (']' :: more) more := .cons (by decide) (.refl more)
    have hmore : TakesWithinLine text more := hopen.trans ((keyPath?_takes hpath).1.trans hclosing)
    obtain ⟨found, inside, hlines, hinside, hname⟩ := lines_of_header hspaces hhead hpath hline
    refine ⟨hstart, fun hnext => ?_, found, ⟨_, hname, fun key hkey => ?_⟩, hlines⟩
    · rw [hmore.count, hline.count hnext]
      exact Nat.add_comm _ _
    · exact names_of_header hkey hpath hinside
  · obtain ⟨htakes, hstart, -⟩ := keyPath?_takes hpath
    obtain ⟨written, hwritten⟩ : after <:+ skipSpaces rest := valueWithin_leavesSuffix _ hvalue
    obtain ⟨front, left, hfront, hlines, hlength⟩ := hline.exists_inner written
    have hinner : (Statement.assign assignment).innerLines =
        (lines left).take (written.count '\n') := by
      have hspan := span?_of_value hvalue
      rw [← hwritten] at hspan
      simp [Statement.innerLines, hspan, innerLines_of_startsWith hfront]
    have hgap : TakesWithinLine ('=' :: rest) (skipSpaces rest) :=
      .cons (by decide) (takes_skipSpaces rest)
    rw [hwritten] at hfront
    obtain ⟨found, hfound, hprefix, hheader⟩ :=
      lines_of_assignment hspaces hhead hpath (takes_skipSpaces rest) hfront hskip
    refine ⟨hstart.trans hskip, fun hnext => ?_, found, ⟨hheader, fun key hkey hkeyLine => ?_⟩, ?_⟩
    · rw [(htakes.trans hgap).count, ← hwritten, List.count_append, hline.count hnext, hinner,
        hlength hnext]
      omega
    · exact names_of_keyLine hkey hpath hprefix hkeyLine
    · rw [hfound, hinner, ← hlines]

/-! ### Lines without a statement

The reader of documents and the search for a key do not stop at the same places: one goes from
statement to statement, the other from line to line.  `LeftAt` holds them together.  It fixes the
number of the next line by the line feeds that are left, so a statement on many lines moves it by as
many at once.
-/

theorem mem_head_trimStart {left line : List Char} (h : left <+: line) {c : Char}
    (hc : c ∈ (trimStart left).head?) : c ∈ (trimStart line).head? := by
  obtain ⟨after, rfl⟩ := h
  obtain ⟨more, hmore⟩ := List.head?_eq_some_iff.mp (Option.mem_def.mp hc)
  have hnone : (left.dropWhile isBlank).isEmpty = false := by
    rw [show left.dropWhile isBlank = c :: more from hmore]
    rfl
  have htrim : trimStart (left ++ after) = trimStart left ++ after := by
    rw [trimStart, List.dropWhile_append, hnone]
    rfl
  rw [htrim, hmore]
  rfl

/-- What is left of a text, and how many lines of the whole text stand before it. -/
structure LeftAt (content text : List Char) (number : Nat) : Prop where
  suffix : text <:+ content
  number : text ≠ [] → number + text.count '\n' = content.count '\n' + 1

theorem LeftAt.next {content text line next : List Char} {number : Nat}
    (h : LeftAt content text number) (hline : StartsWith text line next) :
    LeftAt content next (number + 1) where
  suffix := hline.isSuffix.trans h.suffix
  number hnext := by
    have htext : text ≠ [] := by
      rintro rfl
      exact hnext (List.suffix_nil.mp hline.isSuffix)
    have hcount := hline.count hnext
    have hnumber := h.number htext
    omega

/-- The search goes on behind a line with nothing but a comment. -/
theorem keyLineFrom_startsWith {table? : Option (List Char)} {key : List Char}
    (hkey : IsBareKey key) {text line next : List Char} (htext : StartsWith text line next)
    (hline : ∀ c ∈ (trimStart line).head?, c = '#') (number : Nat)
    (current? : Option (List Char)) :
    keyLineFrom table? key number current? (lines text) =
      keyLineFrom table? key (number + 1) current? (lines next) := by
  by_cases hne : text = []
  · have hnext : next = [] := List.suffix_nil.mp (hne ▸ htext.isSuffix)
    rw [hne, hnext]
    rfl
  · obtain ⟨left, hleft, hlines⟩ := htext.exists_line hne
    have hpassed : IsPassed key left :=
      isPassed_of_nothing hkey fun c hc => hline c (mem_head_trimStart hleft hc)
    rw [hlines, keyLineFrom_passed hpassed]

/-- A text of nothing but spaces has no line with a key. -/
theorem keyLineFrom_spaces {table? : Option (List Char)} {key : List Char} (hkey : IsBareKey key)
    {text : List Char} (hend : skipSpaces text = []) (number : Nat)
    (current? : Option (List Char)) : keyLineFrom table? key number current? (lines text) = none := by
  have hspaces : ∀ c ∈ text, isSpace c = true := List.dropWhile_eq_nil_iff.mp hend
  have hline : StartsWith text text [] :=
    ⟨not_mem_of_all (by decide) hspaces, Or.inr ⟨rfl, rfl⟩⟩
  have hblank : trimStart text = [] :=
    List.dropWhile_eq_nil_iff.mpr fun c hc => isBlank_of_isSpace (hspaces c hc)
  rw [keyLineFrom_startsWith hkey hline (by simp [hblank])]
  rfl

/-- A line of nothing but blanks. -/
theorem startsWith_of_blank {text rest : List Char} (h : newline? (skipSpaces text) = some rest) :
    ∃ line, StartsWith text line rest ∧ trimStart line = [] := by
  obtain ⟨spaces, hspaces, htext⟩ := exists_spaces (rfl : skipSpaces text = skipSpaces text)
  have hfeed : '\n' ∉ spaces := not_mem_of_all (by decide) hspaces
  have hblank : ∀ c ∈ spaces, isBlank c = true := fun c hc => isBlank_of_isSpace (hspaces c hc)
  rcases newline?_cases h with hmore | hmore
  · rw [hmore] at htext
    exact ⟨spaces, ⟨hfeed, Or.inl htext⟩, List.dropWhile_eq_nil_iff.mpr hblank⟩
  · rw [hmore] at htext
    refine ⟨spaces ++ ['\r'], ⟨by simp [hfeed], Or.inl (by simp [htext])⟩, ?_⟩
    rw [trimStart_append hblank]
    rfl

/-- A line of nothing but a comment. -/
theorem startsWith_of_commentLine {text more rest : List Char} (htext : skipSpaces text = '#' :: more)
    (h : lineEnd ('#' :: more) = .ok rest) :
    ∃ line, StartsWith text line rest ∧ ∀ c ∈ (trimStart line).head?, c = '#' := by
  obtain ⟨line, hline⟩ := startsWith_of_comment h
  obtain ⟨spaces, hspaces, rfl⟩ := exists_spaces htext
  have hsign : StartsWith ('#' :: more) ('#' :: line) rest :=
    hline.append (show '\n' ∉ ['#'] by decide)
  refine ⟨spaces ++ '#' :: line, hsign.append (not_mem_of_all (by decide) hspaces), ?_⟩
  rw [trimStart_append fun c hc => isBlank_of_isSpace (hspaces c hc), trimStart_cons (by decide)]
  simp

/-! ### The search

Of the header that the search keeps only this is certain: if its text is the table's name, then the
table is open.  A header can be written otherwise and still open the table, so the invariant of the
induction is an implication, and the search may find less than there is but nothing wrong.
-/

/-- The lines of the first statement of what is left, its place, and what is left behind it. -/
theorem LeftAt.statement {content text more rest : List Char} {number : Nat} {c : Char}
    {first : Statement} (h : LeftAt content text number) (htext : skipSpaces text = c :: more)
    (hfirst : statement (c :: more) = .ok (first, rest)) :
    ∃ line, Shows line first ∧ lines text = line :: (first.innerLines ++ lines rest) ∧
      (placeAt content first.start).line = number ∧
      LeftAt content rest (number + 1 + first.innerLines.length) := by
  obtain ⟨spaces, hspaces, rfl⟩ := exists_spaces htext
  have hskip : skipSpaces (c :: more) = c :: more :=
    (skipSpaces_append hspaces _).symm.trans htext
  obtain ⟨hstart, hcount, line, hshows, hlines⟩ := lines_of_statement hspaces hskip hfirst
  have hfeeds : (spaces ++ c :: more).count '\n' = (c :: more).count '\n' :=
    TakesWithinLine.count ⟨spaces, rfl, not_mem_of_all (by decide) hspaces⟩
  have hnumber := h.number (by simp)
  have hsuffix : c :: more <:+ content := (List.suffix_append spaces _).trans h.suffix
  have hplace := placeAt_line (by simp) hsuffix
  refine ⟨line, hshows, hlines, ?_, (statement_suffix hfirst).1.trans hsuffix, fun hne => ?_⟩
  · rw [hstart]
    omega
  · have hrest := hcount hne
    omega

section

variable {content key : List Char} {table? : Option (List Char)} (hkey : IsBareKey key)
  (htable : ∀ table ∈ table?, IsBareKey table)

include hkey htable

/-- On the line of a statement the search has found what it looks for, or goes on behind the
lines of the statement with the table that is open there. -/
theorem keyLineFrom_statement {first : Statement} {line : List Char} (hshows : Shows line first)
    (hinner : ∀ line ∈ first.innerLines, IsPassed key line) {within : List String}
    {number n : Nat} {current? : Option (List Char)} {more : List (List Char)}
    (hopen : current? = table? → within = (table?.map String.ofList).toList)
    (h : keyLineFrom table? key number current? (line :: (first.innerLines ++ more)) = some n) :
    (number = n ∧
        (table?.map String.ofList).toList ++ [String.ofList key] <+: first.pathWithin within) ∨
      ∃ next?, (next? = table? → first.openBehind within = (table?.map String.ofList).toList) ∧
        keyLineFrom table? key (number + 1 + first.innerLines.length) next? more = some n := by
  rw [keyLineFrom] at h
  cases first with
  | header found =>
      obtain ⟨name, hname, hnames⟩ := hshows
      simp only [hname] at h
      split at h
      case isTrue hhere =>
        rw [Bool.and_eq_true, decide_eq_true_eq] at hhere
        obtain ⟨rfl, hheads⟩ := hhere
        exact Or.inl ⟨Option.some.inj h, (hnames key hkey).2 hheads⟩
      case isFalse =>
        refine Or.inr ⟨some name, ?_, h⟩
        rintro rfl
        exact (hnames name (htable name rfl)).1 rfl
  | assign found =>
      obtain ⟨hheader, hnames⟩ := hshows
      simp only [hheader] at h
      split at h
      case isTrue hhere =>
        rw [Bool.and_eq_true, decide_eq_true_eq] at hhere
        have hpath : within ++ found.path.names =
            (table?.map String.ofList).toList ++ [String.ofList key] := by
          rw [hopen hhere.1, hnames key hkey hhere.2]
        exact Or.inl ⟨Option.some.inj h, hpath ▸ List.prefix_rfl⟩
      case isFalse =>
        rw [keyLineFrom_append hinner] at h
        exact Or.inr ⟨current?, hopen, h⟩

/-- **The search stops on a line on which a statement with the path starts**, or one that goes
on from there, unless it is misled by a line inside a value. -/
theorem keyLineFrom_introduces {text : List Char} {all : List Statement} (h : Reads text all)
    {number n : Nat} {current? : Option (List Char)} {within : List String}
    (hleft : LeftAt content text number)
    (hopen : current? = table? → within = (table?.map String.ofList).toList)
    (hinner : ∀ line ∈ all.flatMap Statement.innerLines, IsPassed key line)
    (hfound : keyLineFrom table? key number current? (lines text) = some n) :
    ∃ entry ∈ outline within all,
      (table?.map String.ofList).toList ++ [String.ofList key] <+: entry.1 ∧
        (placeAt content entry.2.start).line = n := by
  induction h generalizing number current? within with
  | done hend =>
      rw [keyLineFrom_spaces hkey hend] at hfound
      cases hfound
  | @blank text rest all hblank hrest ih =>
      obtain ⟨line, hline, hnothing⟩ := startsWith_of_blank hblank
      rw [keyLineFrom_startsWith hkey hline (by simp [hnothing])] at hfound
      exact ih (hleft.next hline) hopen hinner hfound
  | @comment text more rest all htext hend hshorter hrest ih =>
      obtain ⟨line, hline, hnothing⟩ := startsWith_of_commentLine htext hend
      rw [keyLineFrom_startsWith hkey hline hnothing] at hfound
      exact ih (hleft.next hline) hopen hinner hfound
  | @step text more rest c first all htext hcomment hblank hfirst hshorter hrest ih =>
      obtain ⟨line, hshows, hlines, hplace, hnext⟩ := hleft.statement htext hfirst
      obtain ⟨hhere, hlater⟩ : (∀ line ∈ first.innerLines, IsPassed key line) ∧ _ :=
        List.forall_mem_append.mp hinner
      rw [hlines] at hfound
      rw [outline_cons]
      rcases keyLineFrom_statement hkey htable hshows hhere hopen hfound with
        ⟨rfl, hpath⟩ | ⟨next?, hbehind, hmore⟩
      · exact ⟨_, List.mem_cons_self, hpath, hplace⟩
      · obtain ⟨entry, hentry, hpath⟩ := ih hnext hbehind hlater hmore
        exact ⟨entry, List.mem_cons_of_mem _ hentry, hpath⟩

end

/-! ### Warnings -/

/-- **The line of a warning is one on which a statement introduces the unknown key**: its path
is the path of the key, or goes on from there.  This needs bare keys, a text without a byte
order mark, and values without lines that look like keys or headers. -/
theorem warning_line_introduces {files : Files} {file : Path} {content : List Char} {table : Table}
    {config : Config} {unknown : List (List String)}
    (hfile : files.readText file = .ok content) (hdocument : document content = .ok table)
    (htable : ofTable table = .ok (config, unknown)) (hmark : content.head? ≠ some '\uFEFF') :
    load files file = .ok (config, unknown.map (warn file (lines content))) ∧
      ∀ path ∈ unknown, (∀ name ∈ path, IsBareKey name.toList) →
        (∀ line ∈ (statementsOf content).flatMap Statement.innerLines, ∀ name ∈ path,
          IsPassed name.toList line) →
        ∀ n, (warn file (lines content) path).line = some n →
          ∃ entry ∈ outline [] (statementsOf content), path <+: entry.1 ∧
            (placeAt content entry.2.start).line = n := by
  refine ⟨by rw [load_of_document hfile hdocument, htable], fun path hpath hbare hinner n hline => ?_⟩
  obtain ⟨table?, key, rfl⟩ := unknown_path htable hpath
  have hkey : IsBareKey key := by
    have hlast := hbare (String.ofList key) (by simp)
    rwa [String.toList_ofList] at hlast
  have hname : ∀ name ∈ table?, IsBareKey name := by
    rintro name rfl
    have hfirst := hbare (String.ofList name) (by simp)
    rwa [String.toList_ofList] at hfirst
  have hleft : LeftAt content content 1 := ⟨List.suffix_rfl, fun _ => Nat.add_comm _ _⟩
  have hopen : none = table? → [] = (table?.map String.ofList).toList := by
    rintro rfl
    rfl
  rw [warn_path file _ table? (hkey.not_mem (by decide))] at hline
  refine keyLineFrom_introduces hkey hname (reads_of_document hmark hdocument) hleft hopen ?_ hline
  intro line hmem
  have hlast := hinner line hmem (String.ofList key) (by simp)
  rwa [String.toList_ofList] at hlast

/-- A block may hold the name of the key as long as no line of it looks like the key's. -/
theorem warning_line_introduces_behind_block :
    let content := "[greeting]\nmessage = \"\"\"\nextra extra\n\"\"\"\nextra = 2\n".toList
    ∃ table unknown, document content = .ok table ∧
      ofTable table = .ok (⟨⟨"siris web framework", "extra extra\n"⟩, {}⟩, unknown) ∧
      unknown = [["greeting", "extra"]] ∧
      ∃ entry ∈ outline [] (statementsOf content), ["greeting", "extra"] <+: entry.1 ∧
        (placeAt content entry.2.start).line = 5 := by
  intro content
  let files : Files := fun _ => .file (Utf8.encode content)
  have hfile : files.readText (Path.ofString "greeter.toml") = .ok content := by decide +kernel
  obtain ⟨table, hdocument, htable⟩ : ∃ table ∈ (document content).toOption,
      (⟨⟨"siris web framework", "extra extra\n"⟩, {}⟩, [["greeting", "extra"]]) ∈
        (ofTable table).toOption := by decide +kernel
  have hdocument : document content = .ok table := ok_of_mem_toOption hdocument
  have htable := ok_of_mem_toOption htable
  obtain ⟨-, hlines⟩ := warning_line_introduces hfile hdocument htable (by decide)
  exact ⟨table, _, hdocument, htable, rfl,
    hlines _ List.mem_cons_self (by decide) (by decide +kernel) 5 (by decide +kernel)⟩

/-- An unknown key of a document is reported with a line on which no statement introduces it. -/
def IsMisplaced (content : List Char) (path : List String) : Prop :=
  ∃ table ∈ (document content).toOption, ∃ result ∈ (ofTable table).toOption, path ∈ result.2 ∧
    ∃ n ∈ (warn (Path.ofString "greeter.toml") (lines content) path).line,
      ∀ entry ∈ outline [] (statementsOf content), path <+: entry.1 →
        (placeAt content entry.2.start).line ≠ n

instance (content : List Char) (path : List String) : Decidable (IsMisplaced content path) :=
  inferInstanceAs (Decidable (∃ _ ∈ _, _))

/-- Nothing of this can be left out: a line inside a block, a header behind a byte order mark
and a quoted key with a point in it all lead to a wrong line. -/
theorem warning_line_misplaced :
    IsMisplaced "[greeting]\nmessage = \"\"\"\nextra = 1\n\"\"\"\nextra = 2\n".toList
        ["greeting", "extra"] ∧
      IsMisplaced "\uFEFF[greeting]\nname = 'x'\n[name]\n".toList ["name"] ∧
      IsMisplaced "'a.b' = 1\n[a]\nb = 2\n".toList ["a.b"] := by
  decide +kernel

end Config

end Salutation
