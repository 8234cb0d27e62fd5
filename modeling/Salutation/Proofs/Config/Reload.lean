/-
A printed configuration loads to itself.

The printed document has two sections with two fields each.  Every line is read in front of
the lines after it, from the last to the first, so that the statements of the document are
known whatever the name and the message are; the table they make and the configuration it
describes follow by evaluation.  Where things stand in the text does not matter, because
nothing is reported.
-/
import Salutation.Config.Load
import Salutation.Config.Print
import Salutation.Proofs.Text.Utf8
import Salutation.Proofs.Toml.Document

namespace Salutation

@[simp] theorem Format.ofName?_name (format : Format) : ofName? format.name = some format := by
  cases format <;> rfl

@[simp] theorem Verbosity.ofName?_name (verbosity : Verbosity) :
    ofName? verbosity.name = some verbosity := by
  cases verbosity <;> rfl

namespace Config

open Toml

/-! ### Lines -/

theorem reads_blankLine {rest : List Char} {all : List Statement} (hrest : Reads rest all) :
    Reads ('\n' :: rest) all :=
  .blank rfl hrest

/-- A line with a key between brackets is a header. -/
theorem reads_headerLine (key : String) (hkey : IsBareKey key.toList) {rest : List Char}
    {all : List Statement} (hrest : Reads rest all) :
    ∃ span keySpan, Reads ('[' :: (key.toList ++ ']' :: '\n' :: rest))
      (.header ⟨span, ⟨[], ⟨key, keySpan⟩⟩, false⟩ :: all) := by
  have hend : lineEnd ('\n' :: rest) = .ok rest := rfl
  obtain ⟨span, keySpan, hreads⟩ := reads_header hkey hend (Nat.le_succ _) hrest
  rw [String.ofList_toList] at hreads
  exact ⟨span, keySpan, hreads⟩

/-- A line for a field is the assignment of its text. -/
theorem reads_fieldLine (key : String) (hkey : IsBareKey key.toList) (text : String)
    {rest : List Char} {all : List Statement} (hrest : Reads rest all) :
    ∃ span place, Reads (fieldLine key text ++ rest)
      (.assign ⟨⟨[], ⟨key, span⟩⟩, .scalar place (.text text)⟩ :: all) := by
  have hspace : ∀ c ∈ [' '], isSpace c = true := by simp [isSpace]
  have hend : lineEnd ('\n' :: rest) = .ok rest := rfl
  have hvalue := value_writeString text.toList ('\n' :: rest) (by simp) (by simp)
  have hskip : skipSpaces ([' '] ++ (writeString text.toList ++ '\n' :: rest)) =
      writeString text.toList ++ '\n' :: rest := by
    rw [skipSpaces_append hspace, skipSpaces_writeString]
  rw [← hskip, String.ofList_toList] at hvalue
  obtain ⟨span, hreads⟩ := reads_assignment hkey hspace hvalue hend (by simp; omega) hrest
  rw [String.ofList_toList] at hreads
  exact ⟨span, _, by simpa [fieldLine] using hreads⟩

/-! ### The printed document -/

/-- The sections of a printed configuration make a table that describes the configuration,
wherever they stand in the text. -/
theorem ofTable_printed (config : Config) (g gk n np m mp o ok f fp v vp : Span) :
    ∃ table, assemble [
        .header ⟨g, ⟨[], ⟨"greeting", gk⟩⟩, false⟩,
        .assign ⟨⟨[], ⟨"name", n⟩⟩, .scalar np (.text config.greeting.name)⟩,
        .assign ⟨⟨[], ⟨"message", m⟩⟩, .scalar mp (.text config.greeting.message)⟩,
        .header ⟨o, ⟨[], ⟨"output", ok⟩⟩, false⟩,
        .assign ⟨⟨[], ⟨"format", f⟩⟩, .scalar fp (.text config.output.format.name)⟩,
        .assign ⟨⟨[], ⟨"verbosity", v⟩⟩, .scalar vp (.text config.output.verbosity.name)⟩] =
          .ok table ∧ ofTable table = .ok (config, []) := by
  refine ⟨[(⟨"greeting", gk⟩, .table (.header ⟨g.start, mp.stop⟩)
    [(⟨"name", n⟩, .scalar np (.text config.greeting.name)),
      (⟨"message", m⟩, .scalar mp (.text config.greeting.message))]),
    (⟨"output", ok⟩, .table (.header ⟨o.start, vp.stop⟩)
    [(⟨"format", f⟩, .scalar fp (.text config.output.format.name)),
      (⟨"verbosity", v⟩, .scalar vp (.text config.output.verbosity.name))])], ?_, ?_⟩
  · simp [assemble, Section.split, Table.assignAll, Section.addAll, Section.addTo, Table.openAt,
      Table.assign, Table.get?, Table.erase, Section.span, Node.span?]
  · simp [ofTable, putTables, decodeRecord, putEntries, greetingFields, outputFields, decodeText,
      decodeChoice, Except.map]

/-- A printed configuration is a document that describes the configuration. -/
theorem document_toDocument (config : Config) :
    ∃ table, document config.toDocument = .ok table ∧ ofTable table = .ok (config, []) := by
  have hend : Reads [] [] := .done rfl
  obtain ⟨v, vp, hverbosity⟩ :=
    reads_fieldLine "verbosity" ⟨by decide, by decide⟩ config.output.verbosity.name hend
  obtain ⟨f, fp, hformat⟩ :=
    reads_fieldLine "format" ⟨by decide, by decide⟩ config.output.format.name hverbosity
  obtain ⟨o, ok, houtput⟩ := reads_headerLine "output" ⟨by decide, by decide⟩ hformat
  obtain ⟨m, mp, hmessage⟩ := reads_fieldLine "message" ⟨by decide, by decide⟩
    config.greeting.message (reads_blankLine houtput)
  obtain ⟨n, np, hname⟩ :=
    reads_fieldLine "name" ⟨by decide, by decide⟩ config.greeting.name hmessage
  obtain ⟨g, gk, hgreeting⟩ := reads_headerLine "greeting" ⟨by decide, by decide⟩ hname
  obtain ⟨table, htable, hconfig⟩ :=
    ofTable_printed config g gk n np m mp o ok f fp v vp
  have htext : '[' :: ("greeting".toList ++ ']' :: '\n' ::
      (fieldLine "name" config.greeting.name ++ (fieldLine "message" config.greeting.message ++
        '\n' :: '[' :: ("output".toList ++ ']' :: '\n' ::
          (fieldLine "format" config.output.format.name ++
            (fieldLine "verbosity" config.output.verbosity.name ++ [])))))) =
      config.toDocument := by
    have hfirst : "[greeting]\n".toList = '[' :: ("greeting".toList ++ [']', '\n']) := by decide
    have hsecond : "\n[output]\n".toList = '\n' :: '[' :: ("output".toList ++ [']', '\n']) := by
      decide
    unfold toDocument
    rw [hfirst, hsecond]
    simp only [List.append_assoc, List.cons_append, List.nil_append, List.append_nil]
  have hmark : config.toDocument.head? ≠ some '\uFEFF' := by
    simp [← htext]
  rw [htext] at hgreeting
  exact ⟨table, document_of_reads hmark hgreeting htable, hconfig⟩

/-- **A configuration is loaded unchanged, and without warnings, from a file that holds
exactly what is printed for it.** -/
theorem load_toDocument (config : Config) {files : Files} {file : Path}
    (hfile : files file = .file (Utf8.encode config.toDocument)) :
    load files file = .ok (config, []) := by
  obtain ⟨table, htable, hconfig⟩ := document_toDocument config
  have htext : files.readText file = .ok config.toDocument := by
    simp [Files.readText, Files.read, hfile]
  simp [load, htext, parse, ofText, htable, hconfig]

/-- Quotes, backslashes, line feeds and controls do not get lost.  Here the name is a block
with escapes, because no other form can hold it. -/
theorem load_toDocument_of_quotes :
    load (fun _ => .file (Utf8.encode
      ("[greeting]\nname = \"\"\"\n\"\"\\\" it's\n''' \\\\ \"\"\\\"\"\"\"\n" ++
        "message = \"\\t\\u0007\\\"\"\n\n[output]\nformat = \"json\"\nverbosity = \"debug\"\n").toList))
      (Path.ofString "greeter.toml") =
        .ok (⟨⟨"\"\"\" it's\n''' \\ \"\"\"", "\t\x07\""⟩, ⟨.json, .debug⟩⟩, []) :=
  load_toDocument ⟨⟨"\"\"\" it's\n''' \\ \"\"\"", "\t\x07\""⟩, ⟨.json, .debug⟩⟩
    (congrArg (fun text => Entry.file (Utf8.encode text)) (by decide +kernel))

end Config

end Salutation
