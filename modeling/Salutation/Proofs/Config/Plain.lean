/-
Unknown keys of plain documents.

The search for a key's line knows nothing of the document, and the document nothing of
lines.  In a plain document both go through the same marks: the search stops at the first
mark with the table and the key that it looks for, and the table of the document has one
entry for each mark.  As no path stands twice, the mark that is found is the right one, so
each unknown key is reported with the line on which it stands, in the order of the lines.
-/
import Salutation.Proofs.Config.KeyLine
import Salutation.Proofs.Config.Pruning
import Salutation.Proofs.Text.Lines
import Salutation.Proofs.Text.Utf8
import Salutation.Proofs.Toml.Plain

namespace Salutation

open Toml Text

namespace Toml

/-- A character that ends a line stands on none. -/
theorem PlainLine.not_mem_text (line : PlainLine) {c : Char} (hc : c = '\n' ∨ c = '\r') :
    c ∉ line.text := by
  have hspace : isSpace c = false := by rcases hc with rfl | rfl <;> rfl
  have hplain : isPlain c = false := by rcases hc with rfl | rfl <;> decide
  have hbare : isBare c = false := by rcases hc with rfl | rfl <;> decide
  have hsign : c ≠ '#' ∧ c ≠ '[' ∧ c ≠ ']' ∧ c ≠ '=' := by rcases hc with rfl | rfl <;> decide
  have hindent := not_mem_of_all hspace line.hindent
  have hmargin : c ∉ line.margin.text := by
    have hspaces := not_mem_of_all hspace line.margin.hspaces
    unfold Margin.text
    cases hcomment : line.margin.comment? with
    | none => exact hspaces
    | some comment =>
        have htail := not_mem_of_all hplain (line.margin.hcomment comment hcomment)
        simp [hspaces, htail, hsign]
  have hbody : c ∉ line.body.text := by
    cases line.body with
    | nothing => simp [LineBody.text]
    | header key hkey => simp [LineBody.text, hkey.not_mem hbare, hsign]
    | entry key before after value hkey hbefore hafter =>
        have hwritten : c ∉ value.written := by
          rcases hc with rfl | rfl
          · exact value.oneLine.1
          · exact value.oneLine.2
        simp [LineBody.text, hkey.not_mem hbare, not_mem_of_all hspace hbefore,
          not_mem_of_all hspace hafter, hwritten, hsign]
  simp [PlainLine.text, hindent, hmargin, hbody]

/-- The lines of a plain document are the lines of its text, except that a last line with
nothing in it does not count. -/
theorem PlainDocument.lines_textOf (ended : List (PlainLine × LineEnding)) (last : PlainLine) :
    Text.lines (textOf ended last) =
      ended.map (·.1.text) ++ if last.text = [] then [] else [last.text] := by
  induction ended with
  | nil =>
      rw [List.map_nil, List.nil_append]
      exact lines_of_line (last.not_mem_text (Or.inl rfl))
  | cons first more ih =>
      obtain ⟨line, ending⟩ := first
      have hfeed := line.not_mem_text (Or.inl rfl)
      have hreturn := line.not_mem_text (Or.inr rfl)
      rw [List.map_cons, List.cons_append, ← ih]
      cases ending with
      | feed =>
          have hlines := lines_append hfeed (textOf more last)
          rwa [withoutReturn_of_not_mem hreturn] at hlines
      | returnFeed =>
          have hlonger : '\n' ∉ line.text ++ ['\r'] := by simp [hfeed]
          have hlines := lines_append hlonger (textOf more last)
          rw [withoutReturn_concat, List.append_assoc] at hlines
          exact hlines

end Toml

namespace Config

/-! ### The search among plain lines

What the search finds among lines is said by their marks, from any number and any open table on, so
that it can be said of one line in front of others.  There is one lemma for each kind of line.
-/

/-- The search among lines finds the first of their marks with the table and the key. -/
def FindsFirstMark (table? : Option (List Char)) (key : List Char) (texts : List (List Char))
    (plain : List PlainLine) : Prop :=
  ∀ number current?, keyLineFrom table? key number current? texts =
    ((marksFrom number current? plain).find? fun mark =>
      mark.table? = table? && mark.key = key).map (·.line)

/-- Without its indentation a line starts with its body. -/
theorem trimStart_text (line : PlainLine) :
    trimStart line.text = trimStart (line.body.text ++ line.margin.text) :=
  trimStart_append (fun c hc => isBlank_of_isSpace (line.hindent c hc)) _

/-- A margin is nothing but blanks, or goes on with a comment. -/
theorem head?_trimStart_margin (margin : Margin) :
    ∀ c ∈ (trimStart margin.text).head?, c = '#' := by
  have hspaces : ∀ c ∈ margin.spaces, isBlank c = true :=
    fun c hc => isBlank_of_isSpace (margin.hspaces c hc)
  unfold Margin.text
  cases margin.comment? with
  | none =>
      have hnone : trimStart margin.spaces = [] := List.dropWhile_eq_nil_iff.mpr hspaces
      simp [hnone]
  | some comment =>
      dsimp only
      rw [trimStart_append hspaces, trimStart_cons (by decide)]
      simp

section

variable {table? : Option (List Char)} {key : List Char} (hkey : IsBareKey key)
  {texts : List (List Char)} {more : List PlainLine} (hmore : FindsFirstMark table? key texts more)
  {line : PlainLine}

include hkey hmore

/-- A line without a mark is passed over. -/
theorem findsFirstMark_nothing (hbody : line.body = .nothing) :
    FindsFirstMark table? key (line.text :: texts) (line :: more) := by
  have hpassed : IsPassed key line.text := by
    refine isPassed_of_nothing hkey ?_
    rw [trimStart_text, hbody]
    exact head?_trimStart_margin line.margin
  intro number current?
  rw [keyLineFrom_passed hpassed, marksFrom, hbody]
  exact hmore _ _

omit hkey in
/-- The line of a header is its mark if the search is for a key of the root. -/
theorem findsFirstMark_header {other : List Char} (hother : IsBareKey other)
    (hbody : line.body = .header other hother) :
    FindsFirstMark table? key (line.text :: texts) (line :: more) := by
  have htext : trimStart line.text = '[' :: (other ++ ']' :: line.margin.text) := by
    rw [trimStart_text, hbody]
    simp [LineBody.text, trimStart_cons (show isBlank '[' = false by decide)]
  have hpoint : '.' ∉ other := hother.not_mem (by decide)
  intro number current?
  unfold keyLineFrom marksFrom
  simp only [htext, hbody, headerText?_bare hother, headsTable_of_not_mem hpoint, List.find?_cons]
  by_cases hfound : table? = none ∧ other = key
  · simp [hfound]
  · have hhere : ¬(decide (table? = none) && decide (other = key)) = true := by
      simpa using hfound
    have hmark : (decide (none = table?) && decide (other = key)) = false := by
      rw [Bool.and_eq_false_iff, decide_eq_false_iff_not, decide_eq_false_iff_not]
      exact not_and_or.mp fun h => hfound ⟨h.1.symm, h.2⟩
    rw [if_neg hhere, hmark]
    exact hmore _ _

/-- The line of an entry is its mark if the search is for its key in the table that is open. -/
theorem findsFirstMark_entry {other before after : List Char} {value : PlainValue}
    (hother : IsBareKey other) (hbefore : ∀ c ∈ before, isSpace c = true)
    (hafter : ∀ c ∈ after, isSpace c = true)
    (hbody : line.body = .entry other before after value hother hbefore hafter) :
    FindsFirstMark table? key (line.text :: texts) (line :: more) := by
  have htext : trimStart line.text =
      other ++ (before ++ '=' :: (after ++ value.written ++ line.margin.text)) := by
    have hbare := hother.trimStart (before ++ '=' :: (after ++ value.written ++ line.margin.text))
    rw [trimStart_text, hbody]
    simpa [LineBody.text] using hbare
  have hheader : headerText? (other ++ (before ++ '=' :: (after ++ value.written ++
      line.margin.text))) = none := by
    obtain ⟨c, left, hcons, hc⟩ := hother.head
    refine headerText?_of_head fun hopen => ?_
    rw [hcons] at hopen
    cases hopen
    exact absurd hc (by decide)
  intro number current?
  unfold keyLineFrom marksFrom
  simp only [htext, hbody, hheader, isKeyLine_bare hkey hother hbefore, List.find?_cons]
  by_cases hfound : current? = table? ∧ key = other
  · simp [hfound]
  · have hhere : ¬(decide (current? = table?) && decide (key = other)) = true := by
      simpa using hfound
    have hmark : (decide (current? = table?) && decide (other = key)) = false := by
      rw [Bool.and_eq_false_iff, decide_eq_false_iff_not, decide_eq_false_iff_not]
      exact not_and_or.mp fun h => hfound ⟨h.1, h.2.symm⟩
    rw [if_neg hhere, hmark]
    exact hmore _ _

/-- The search goes over one line as over its mark. -/
theorem findsFirstMark_cons (line : PlainLine) :
    FindsFirstMark table? key (line.text :: texts) (line :: more) := by
  cases hbody : line.body with
  | nothing => exact findsFirstMark_nothing hkey hmore hbody
  | header other hother => exact findsFirstMark_header hmore hother hbody
  | entry other before after value hother hbefore hafter =>
      exact findsFirstMark_entry hkey hmore hother hbefore hafter hbody

end

section

variable {table? : Option (List Char)} {key : List Char} (hkey : IsBareKey key)

include hkey

/-- **Among plain lines the search finds the first mark with the table and the key.** -/
theorem keyLineFrom_textOf (ended : List (PlainLine × LineEnding)) (last : PlainLine) (number : Nat)
    (current? : Option (List Char)) :
    keyLineFrom table? key number current? (lines (PlainDocument.textOf ended last)) =
      ((marksFrom number current? (ended.map (·.1) ++ [last])).find?
        fun mark => mark.table? = table? && mark.key = key).map (·.line) := by
  rw [PlainDocument.lines_textOf]
  induction ended generalizing number current? with
  | nil =>
      rw [List.map_nil, List.nil_append]
      by_cases hempty : last.text = []
      · have hbody : last.body = .nothing := by
          obtain ⟨-, hnone, -⟩ : last.indent = [] ∧ last.body.text = [] ∧ last.margin.text = [] := by
            simpa [PlainLine.text] using hempty
          cases hbody : last.body with
          | nothing => rfl
          | header => simp [hbody, LineBody.text] at hnone
          | entry => simp [hbody, LineBody.text] at hnone
        simp [hempty, keyLineFrom, marksFrom, hbody]
      · rw [if_neg hempty]
        exact findsFirstMark_cons hkey (fun _ _ => rfl) last number current?
  | cons first more ih => exact findsFirstMark_cons hkey ih first.1 number current?

end

/-! ### The unknown keys of a table with single keys -/

/-- Whether the key at a path is reported: an unknown key of the root, or one of a table that
is known. -/
def isReported : List String → Bool
  | [key] => !isKnown [key]
  | [name, key] => isKnown [name] && !isKnown [name, key]
  | _ => false

theorem unknownKeys_append (front rest : Table) :
    unknownKeys (front ++ rest) = unknownKeys front ++ unknownKeys rest := by
  simp [unknownKeys, visitedKeys]

/-- Of a section either the table is reported or the unknown keys in it. -/
theorem unknownKeys_section (part : Section) :
    unknownKeys [part.entry] =
      ([part.header.path.last.name] :: part.body.map fun a =>
        [part.header.path.last.name, a.path.last.name]).filter isReported := by
  have hnames : (entriesOf part.entry.2).names = part.body.map (·.path.last.name) := by
    simp [Section.entry, entriesOf, Table.names, Assignment.entry]
  rw [show [part.entry] = [(part.header.path.last, part.entry.2)] from rfl, unknownKeys_cons,
    hnames, List.map_map, List.filter_cons, List.filter_map, List.filter_map]
  by_cases hknown : isKnown [part.header.path.last.name] = true
  · simp [isReported, hknown, unknownKeys, visitedKeys, Function.comp_def]
  · simp [isReported, hknown, unknownKeys, visitedKeys, Function.comp_def]

theorem unknownKeys_sections (parts : List Section) :
    unknownKeys (parts.map Section.entry) =
      (parts.flatMap fun part => [part.header.path.last.name] ::
        part.body.map fun a => [part.header.path.last.name, a.path.last.name]).filter isReported := by
  induction parts with
  | nil => rfl
  | cons part more ih =>
      rw [List.map_cons, ← List.singleton_append, unknownKeys_append, unknownKeys_section, ih,
        List.flatMap_cons, List.filter_append]

/-- Keys of the root that are not known are all reported. -/
theorem unknownKeys_assignments {assignments : List Assignment}
    (hunknown : ∀ a ∈ assignments, isKnown [a.path.last.name] = false) :
    unknownKeys (assignments.map Assignment.entry) =
      (assignments.map fun a => [a.path.last.name]).filter isReported := by
  induction assignments with
  | nil => rfl
  | cons first more ih =>
      obtain ⟨hfirst, hmore⟩ := List.forall_mem_cons.mp hunknown
      rw [List.map_cons, List.map_cons, List.filter_cons, ← ih hmore,
        show first.entry = (first.path.last, first.value) from rfl, unknownKeys_cons]
      simp [isReported, hfirst]

/-- **The unknown keys of single keys are the paths that are reported**, in the same order. -/
theorem unknownKeys_singleTable {all : List Statement} (hsingle : ∀ s ∈ all, s.IsSingle)
    (hheaded : ∀ a ∈ (Section.split all).1, isKnown [a.path.last.name] = false) :
    unknownKeys (singleTable all) = ((outline [] all).map (·.1)).filter isReported := by
  rw [map_fst_outline_single hsingle, singleTable, unknownKeys_append, List.filter_append,
    unknownKeys_assignments hheaded, unknownKeys_sections]

/-! ### Plain documents that fit -/

end Config

namespace Toml

/-- A plain document has a value at a path. -/
def PlainDocument.Gives (doc : PlainDocument) (path : List String) (content : Scalar) : Prop :=
  ∃ mark ∈ doc.marks, mark.path = path ∧ mark.content? = some content

end Toml

namespace Config

/-- A plain document in which no path stands twice, what stands at the two keys of the root is
opened by a header, and the values for the four fields are usable. -/
structure FitsPlainly (doc : PlainDocument) : Prop where
  distinct : (doc.marks.map Mark.path).Nodup
  headed : ∀ name ∈ ["greeting", "output"], ∀ content, ¬doc.Gives [name] content
  name : ∀ content, doc.Gives ["greeting", "name"] content → ∃ s, content = .text s
  message : ∀ content, doc.Gives ["greeting", "message"] content → ∃ s, content = .text s
  format : ∀ content, doc.Gives ["output", "format"] content →
    ∃ format : Format, content = .text format.name
  verbosity : ∀ content, doc.Gives ["output", "verbosity"] content →
    ∃ verbosity : Verbosity, content = .text verbosity.name

theorem exists_mark {marks : List Mark} {entries : List (List String × Statement)}
    (h : List.Forall₂ Mark.Marks marks entries) {entry : List String × Statement}
    (hentry : entry ∈ entries) : ∃ mark ∈ marks, mark.Marks entry := by
  induction h with
  | nil => cases hentry
  | @cons mark other marks entries hfirst _ ih =>
      rcases List.mem_cons.mp hentry with rfl | hlater
      · exact ⟨mark, List.mem_cons_self, hfirst⟩
      · obtain ⟨found, hfound, hmarks⟩ := ih hlater
        exact ⟨found, List.mem_cons_of_mem _ hfound, hmarks⟩

section

variable {doc : PlainDocument} {all : List Statement}
  (hmarks : List.Forall₂ Mark.Marks doc.marks (outline [] all))

include hmarks

/-- What is assigned in a plain document, the document gives. -/
theorem gives_of_outline {path : List String} {a : Assignment}
    (h : (path, Statement.assign a) ∈ outline [] all) :
    ∃ place content, a.value = .scalar place content ∧ doc.Gives path content := by
  obtain ⟨mark, hmem, hpath, -, hcontent⟩ := exists_mark hmarks h
  cases hgiven : mark.content? with
  | none =>
      rw [hgiven] at hcontent
      obtain ⟨header, hheader⟩ := hcontent
      cases hheader
  | some content =>
      rw [hgiven] at hcontent
      obtain ⟨keyPath, place, hassign⟩ := hcontent
      cases hassign
      exact ⟨place, content, rfl, mark, hmem, hpath.symm, hgiven⟩

variable (hsingle : ∀ s ∈ all, s.IsSingle)

include hsingle

theorem gives_of_body {a : Assignment} (ha : a ∈ (Section.split all).1) :
    ∃ place content, a.value = .scalar place content ∧ doc.Gives [a.path.last.name] content := by
  refine gives_of_outline hmarks (mem_outline.mpr (Or.inl ⟨a, ha, ?_⟩))
  rw [KeyPath.names_of_single (single_body hsingle a ha)]
  rfl

theorem gives_of_section {part : Section} (hpart : part ∈ (Section.split all).2) {a : Assignment}
    (ha : a ∈ part.body) : ∃ place content, a.value = .scalar place content ∧
      doc.Gives [part.header.path.last.name, a.path.last.name] content := by
  obtain ⟨⟨hheader, -⟩, hbody⟩ := single_part hsingle part hpart
  refine gives_of_outline hmarks (mem_outline.mpr (Or.inr ⟨part, hpart, Or.inr ⟨a, ha, ?_⟩⟩))
  rw [KeyPath.names_of_single hheader, KeyPath.names_of_single (hbody a ha)]
  rfl

/-- The table of a plain document gives what the document gives. -/
theorem gives_of_singleTable {name key : String} {node : Node}
    (h : Gives (singleTable all) name key node) :
    ∃ place content, node = .scalar place content ∧ doc.Gives [name, key] content := by
  obtain ⟨origin, entries, ⟨found, hfound, rfl⟩, inner, hinner, rfl⟩ := h
  rcases List.mem_append.mp hfound with hroot | hsection
  · obtain ⟨a, ha, hentry⟩ := List.mem_map.mp hroot
    obtain ⟨place, content, hvalue, -⟩ := gives_of_body hmarks hsingle ha
    have htable : a.value = .table origin entries := congrArg Prod.snd hentry
    rw [hvalue] at htable
    cases htable
  · obtain ⟨part, hpart, hentry⟩ := List.mem_map.mp hsection
    cases hentry
    obtain ⟨a, ha, hassigned⟩ := List.mem_map.mp hinner
    cases hassigned
    exact gives_of_section hmarks hsingle hpart ha

variable (hfits : FitsPlainly doc)

include hfits

theorem hasTables_singleTable : HasTables (singleTable all) := by
  rintro name hname node ⟨found, hfound, rfl⟩
  rcases List.mem_append.mp hfound with hroot | hsection
  · obtain ⟨a, ha, hentry⟩ := List.mem_map.mp hroot
    obtain ⟨place, content, -, hgives⟩ := gives_of_body hmarks hsingle ha
    cases hentry
    exact absurd hgives (hfits.headed _ hname content)
  · obtain ⟨part, -, hentry⟩ := List.mem_map.mp hsection
    cases hentry
    exact ⟨_, _, rfl⟩

/-- The table of a plain document that fits, fits. -/
theorem fits_singleTable : Fits (singleTable all) where
  name node hnode := by
    obtain ⟨place, content, rfl, hgives⟩ := gives_of_singleTable hmarks hsingle hnode
    obtain ⟨s, rfl⟩ := hfits.name content hgives
    exact ⟨s, place, rfl⟩
  message node hnode := by
    obtain ⟨place, content, rfl, hgives⟩ := gives_of_singleTable hmarks hsingle hnode
    obtain ⟨s, rfl⟩ := hfits.message content hgives
    exact ⟨s, place, rfl⟩
  format node hnode := by
    obtain ⟨place, content, rfl, hgives⟩ := gives_of_singleTable hmarks hsingle hnode
    obtain ⟨format, rfl⟩ := hfits.format content hgives
    exact ⟨format, .text ⟨place, rfl⟩⟩
  verbosity node hnode := by
    obtain ⟨place, content, rfl, hgives⟩ := gives_of_singleTable hmarks hsingle hnode
    obtain ⟨verbosity, rfl⟩ := hfits.verbosity content hgives
    exact ⟨verbosity, .text ⟨place, rfl⟩⟩

end

/-! ### Warnings -/

/-- The warning for a mark of a file. -/
def warnMark (file : Path) (mark : Mark) : Warning :=
  ⟨String.ofList mark.key, file, some mark.line,
    suggestion? (mark.table?.map String.ofList) (String.ofList mark.key)⟩

/-- The keys that are reported for a plain document. -/
def reportedMarks (doc : PlainDocument) : List Mark :=
  doc.marks.filter fun mark => isReported mark.path

theorem bare_of_marksFrom {number : Nat} {current? : Option (List Char)} {lines : List PlainLine} :
    ∀ mark ∈ marksFrom number current? lines, IsBareKey mark.key := by
  induction lines generalizing number current? with
  | nil => simp [marksFrom]
  | cons line more ih =>
      unfold marksFrom
      split
      · exact ih
      case h_2 key hkey _ => exact List.forall_mem_cons.mpr ⟨hkey, ih⟩
      case h_3 key _ _ _ hkey _ _ _ => exact List.forall_mem_cons.mpr ⟨hkey, ih⟩

/-- Among marks with distinct paths a mark is found by its own. -/
theorem find?_mark {marks : List Mark} (hdistinct : (marks.map Mark.path).Nodup) {mark : Mark}
    (hmark : mark ∈ marks) :
    (marks.find? fun other => other.table? = mark.table? && other.key = mark.key) = some mark := by
  induction marks with
  | nil => cases hmark
  | cons first more ih =>
      rw [List.map_cons, List.nodup_cons] at hdistinct
      obtain ⟨hfresh, hmore⟩ := hdistinct
      rw [List.find?_cons]
      rcases List.mem_cons.mp hmark with rfl | hlater
      · simp
      · have hother : (decide (first.table? = mark.table?) && decide (first.key = mark.key)) =
            false := by
          rw [← Bool.not_eq_true]
          intro hsame
          rw [Bool.and_eq_true, decide_eq_true_eq, decide_eq_true_eq] at hsame
          have hpath : first.path = mark.path := by
            unfold Mark.path
            rw [hsame.1, hsame.2]
          exact hfresh (hpath ▸ List.mem_map_of_mem hlater)
        rw [hother]
        exact ih hmore hlater

/-- The warning for a mark's path gives the mark's line. -/
theorem warn_mark {doc : PlainDocument} (hdistinct : (doc.marks.map Mark.path).Nodup)
    {mark : Mark} (hmark : mark ∈ doc.marks) (file : Path) :
    warn file (lines doc.text) mark.path = warnMark file mark := by
  have hbare : IsBareKey mark.key := bare_of_marksFrom mark hmark
  have hpoint : '.' ∉ mark.key := hbare.not_mem (by decide)
  have hline : keyLineFrom mark.table? mark.key 1 none (lines doc.text) = some mark.line := by
    refine (keyLineFrom_textOf hbare doc.ended doc.last 1 none).trans ?_
    exact congrArg (Option.map (·.line)) (find?_mark hdistinct hmark)
  rw [Mark.path, warn_path file _ mark.table? hpoint, hline, warnMark]

/-- **Each unknown key of a plain document is reported with its own line**, in the order of the
lines. -/
theorem load_plain {files : Files} {file : Path} {doc : PlainDocument}
    (hfile : files.readText file = .ok doc.text) (hfits : FitsPlainly doc) :
    ∃ table config, document doc.text = .ok table ∧
      unknownKeys table = (reportedMarks doc).map Mark.path ∧
      load files file = .ok (config, (reportedMarks doc).map (warnMark file)) ∧
      ((reportedMarks doc).map (·.line)).Pairwise (· < ·) := by
  obtain ⟨all, hmarks, hsingle, hdocument⟩ := doc.document_text hfits.distinct
  have htables := hasTables_singleTable hmarks hsingle hfits
  obtain ⟨⟨config, unknown⟩, hconfig⟩ :=
    (ofTable_ok_iff htables).mpr (fits_singleTable hmarks hsingle hfits)
  have hheaded : ∀ a ∈ (Section.split all).1, isKnown [a.path.last.name] = false := by
    intro a ha
    obtain ⟨place, content, -, hgives⟩ := gives_of_body hmarks hsingle ha
    rw [← Bool.not_eq_true]
    intro hknown
    exact hfits.headed _ (isKnown_root.mp hknown) content hgives
  have hunknown : unknownKeys (singleTable all) = (reportedMarks doc).map Mark.path := by
    rw [unknownKeys_singleTable hsingle hheaded, Mark.Marks.map_path hmarks, List.filter_map]
    rfl
  refine ⟨singleTable all, config, hdocument, hunknown, ?_, ?_⟩
  · rw [load_of_document hfile hdocument, hconfig]
    dsimp only
    rw [putTables_unknown htables hconfig, hunknown, List.map_map]
    congr 2
    refine List.map_congr_left fun mark hmark => ?_
    exact warn_mark hfits.distinct (List.mem_of_mem_filter hmark) file
  · exact (marksFrom_increasing 1 none doc.lines).2.sublist (List.filter_sublist.map _)

/-- A document whose comments and values look like keys and headers. -/
def misleading : PlainDocument :=
  let empty : Margin := ⟨[], none, by simp, by simp⟩
  let comment : Margin := {
    spaces := [' ']
    comment? := some " extra = 0".toList
    hspaces := List.all_eq_true.mp (by decide)
    hcomment := by
      rintro _ ⟨⟩
      exact List.all_eq_true.mp (by decide) }
  let entry (key before after : List Char) (value : PlainValue) (hkey : IsBareKey key)
      (hbefore : before.all isSpace = true) (hafter : after.all isSpace = true) :=
    LineBody.entry key before after value hkey (List.all_eq_true.mp hbefore)
      (List.all_eq_true.mp hafter)
  { ended := [
      (⟨[], .nothing, comment, by simp⟩, .feed),
      (⟨[], entry "extra".toList [' '] [' '] ⟨"1".toList, .integer 1, ⟨_, rfl⟩, rfl, by decide⟩
        (by decide) (by decide) (by decide), empty, by simp⟩, .feed),
      (⟨[], .header "greeting".toList (by decide), comment, by simp⟩, .returnFeed),
      (⟨[], entry "name".toList [] [] ⟨"'[output]'".toList, .text "[output]", ⟨_, rfl⟩, rfl,
        by decide⟩ (by decide) (by decide) (by decide), empty, by simp⟩, .feed),
      (⟨['\t'], entry "extra".toList [] [' '] ⟨"true".toList, .truth true, ⟨_, rfl⟩, rfl,
        by decide⟩ (by decide) (by decide) (by decide), comment,
        List.all_eq_true.mp (by decide)⟩, .feed)],
    last := ⟨[], .header "greetings".toList (by decide), empty, by simp⟩ }

/-- Neither a comment nor a value is taken for a line of a key, and each of two keys with one
name is reported with its own line. -/
theorem load_plain_of_misleading :
    misleading.text = (" # extra = 0\nextra = 1\n[greeting] # extra = 0\r\nname='[output]'\n" ++
        "\textra= true # extra = 0\n[greetings]").toList ∧
      FitsPlainly misleading ∧
      ∃ config, load (fun _ => .file (Utf8.encode misleading.text)) (Path.ofString "greeter.toml") =
        .ok (config, [
          ⟨"extra", Path.ofString "greeter.toml", some 2, none⟩,
          ⟨"extra", Path.ofString "greeter.toml", some 5, none⟩,
          ⟨"greetings", Path.ofString "greeter.toml", some 6, some "greeting"⟩]) := by
  have hmarks : misleading.marks = [
      ⟨none, "extra".toList, 2, some (.integer 1)⟩, ⟨none, "greeting".toList, 3, none⟩,
      ⟨some "greeting".toList, "name".toList, 4, some (.text "[output]")⟩,
      ⟨some "greeting".toList, "extra".toList, 5, some (.truth true)⟩,
      ⟨none, "greetings".toList, 6, none⟩] := rfl
  have hfits : FitsPlainly misleading := by
    constructor
    · decide
    all_goals simp [PlainDocument.Gives, hmarks, Mark.path]
  have hfile : Files.readText (fun _ => .file (Utf8.encode misleading.text))
      (Path.ofString "greeter.toml") = .ok misleading.text := by
    simp [Files.readText, Files.read]
  obtain ⟨table, config, -, -, hload, -⟩ := load_plain hfile hfits
  refine ⟨by decide, hfits, config, hload.trans ?_⟩
  have hreported : reportedMarks misleading = [
      ⟨none, "extra".toList, 2, some (.integer 1)⟩,
      ⟨some "greeting".toList, "extra".toList, 5, some (.truth true)⟩,
      ⟨none, "greetings".toList, 6, none⟩] := by
    rw [reportedMarks, hmarks]
    rfl
  rw [hreported]
  exact congrArg (fun warnings => Except.ok (config, warnings)) (by decide +kernel)

end Config

end Salutation
