/-
The names of formats and verbosities.

The names stand in three places: in a file, in what a person writes in a variable, and in the
list that is shown where something else was written.  A format and a verbosity have the same
name in all of them.  A file must hold the very name.  A person may put blanks around it
and write any of its letters as a capital, but a capital of ASCII: what else Unicode takes for a
form of the same letter is no spelling of the name.  That holds because no name has a k in it,
which a Kelvin sign becomes, and because a dotted capital I leaves its dot behind.
-/
import Salutation.Proofs.Config.Fit
import Salutation.Proofs.Config.Reload
import Salutation.Proofs.Overriding
import Salutation.Proofs.Text.LowerCase

namespace Salutation

open Text

/-! ### What a person writes -/

/-- How choices are named: which texts name a choice, and which are listed as names. -/
structure Naming {α : Type} (parse? ofName? : String → Option α) (name : α → String)
    (names : List String) : Prop where
  /-- What stands between blanks is the name, but for the case of ASCII letters. -/
  parse_iff : ∀ value choice, parse? value = some choice ↔
    SameLetters (trim value.toList) (name choice).toList
  /-- No other letters stand for ASCII letters. -/
  ascii : ∀ value, (∃ c ∈ trim value.toList, 128 ≤ c.toNat) → parse? value = none
  /-- It does not matter which form a capital sigma gets. -/
  sigma : ∀ value lowered, LowersTo (trim value.toList) lowered →
    ofName? (String.ofList lowered) = parse? value
  /-- The names that are listed are those of the choices. -/
  mem_names : ∀ listed, listed ∈ names ↔ ∃ choice, name choice = listed
  /-- A text names a choice if it is one of the listed names. -/
  accepts_iff : ∀ value, (∃ choice, parse? value = some choice) ↔
    ∃ listed ∈ names, SameLetters (trim value.toList) listed.toList

/-- Plain words are read from what a person writes as they should be. -/
theorem naming_of_plain {α : Type} {parse? ofName? : String → Option α} {name : α → String}
    {names : List String} (all : List α)
    (hparse : ∀ value : String, parse? value = ofName? (plainName value))
    (hofName : ∀ text choice, ofName? text = some choice ↔ text = name choice)
    (hplain : ∀ choice, IsPlainWord (name choice).toList) (hall : ∀ choice, choice ∈ all)
    (hnames : names = all.map name) : Naming parse? ofName? name names := by
  subst hnames
  have hlowered : ∀ (value : String) (lowered : List Char) (choice : α),
      LowersTo (trim value.toList) lowered →
      (ofName? (String.ofList lowered) = some choice ↔
        SameLetters (trim value.toList) (name choice).toList) := by
    intro value lowered choice h
    rw [hofName, ← h.eq_iff (hplain choice), ← String.toList_inj, String.toList_ofList]
  have hiff : ∀ (value : String) (choice : α), parse? value = some choice ↔
      SameLetters (trim value.toList) (name choice).toList := by
    intro value choice
    rw [hparse]
    exact hlowered value _ choice (lowersTo_lower _)
  refine ⟨hiff, ?_, ?_, ?_, ?_⟩
  · rintro value ⟨c, hc, hother⟩
    rw [Option.eq_none_iff_forall_ne_some]
    intro choice hchoice
    have hascii := (hplain choice).ascii ((hiff value choice).mp hchoice) hc
    omega
  · intro value lowered h
    apply Option.ext
    intro choice
    rw [hlowered value lowered choice h, hiff]
  · intro listed
    simp [hall]
  · intro value
    simp [hiff, hall]

theorem Format.naming : Naming Format.parse? Format.ofName? Format.name Format.names := by
  refine naming_of_plain Format.all Format.parse?_eq
    (fun _ _ => Format.ofName?_eq_some_iff) ?_ ?_ rfl
  · intro format
    cases format <;> decide +kernel
  · intro format
    cases format <;> decide

theorem Verbosity.naming :
    Naming Verbosity.parse? Verbosity.ofName? Verbosity.name Verbosity.names := by
  refine naming_of_plain Verbosity.all Verbosity.parse?_eq
    (fun _ _ => Verbosity.ofName?_eq_some_iff) ?_ ?_ rfl
  · intro verbosity
    cases verbosity <;> decide +kernel
  · intro verbosity
    cases verbosity <;> decide

namespace Config

open Toml

/-! ### What a file holds -/

/-- A document that gives the format and the verbosity. -/
def outputDocument (format verbosity : String) : List Char :=
  "[output]\n".toList ++ (fieldLine "format" format ++ fieldLine "verbosity" verbosity)

/-- A printed configuration ends with the names of its format and its verbosity. -/
theorem exists_front_toDocument (config : Config) : ∃ front, config.toDocument =
    front ++ outputDocument config.output.format.name config.output.verbosity.name := by
  have hhead : "\n[output]\n".toList = ['\n'] ++ "[output]\n".toList := by decide
  refine ⟨"[greeting]\n".toList ++ fieldLine "name" config.greeting.name ++
    fieldLine "message" config.greeting.message ++ ['\n'], ?_⟩
  unfold toDocument outputDocument
  rw [hhead]
  simp only [List.append_assoc]

/-- The names in a document are looked up as they are. -/
theorem ofText_outputDocument (format verbosity : String) (output : Output) :
    ofText (outputDocument format verbosity) = .ok (⟨{}, output⟩, []) ↔
      format = output.format.name ∧ verbosity = output.verbosity.name := by
  have hend : Reads [] [] := .done rfl
  obtain ⟨v, vp, hverbosity⟩ :=
    reads_fieldLine "verbosity" ⟨by decide, by decide⟩ verbosity hend
  obtain ⟨f, fp, hformat⟩ := reads_fieldLine "format" ⟨by decide, by decide⟩ format hverbosity
  obtain ⟨o, ok, houtput⟩ := reads_headerLine "output" ⟨by decide, by decide⟩ hformat
  have htable : assemble [
      .header ⟨o, ⟨[], ⟨"output", ok⟩⟩, false⟩,
      .assign ⟨⟨[], ⟨"format", f⟩⟩, .scalar fp (.text format)⟩,
      .assign ⟨⟨[], ⟨"verbosity", v⟩⟩, .scalar vp (.text verbosity)⟩] =
        .ok [(⟨"output", ok⟩, .table (.header ⟨o.start, vp.stop⟩)
          [(⟨"format", f⟩, .scalar fp (.text format)),
            (⟨"verbosity", v⟩, .scalar vp (.text verbosity))])] := by
    simp [assemble, Section.split, Table.assignAll, Section.addAll, Section.addTo, Table.openAt,
      Table.assign, Table.get?, Table.erase, Section.span, Node.span?]
  have htext : '[' :: ("output".toList ++ ']' :: '\n' ::
      (fieldLine "format" format ++ (fieldLine "verbosity" verbosity ++ []))) =
        outputDocument format verbosity := by
    have hhead : "[output]\n".toList = '[' :: ("output".toList ++ [']', '\n']) := by decide
    unfold outputDocument
    rw [hhead]
    simp only [List.append_assoc, List.cons_append, List.nil_append, List.append_nil]
  have hmark : (outputDocument format verbosity).head? ≠ some '\uFEFF' := by
    simp [← htext]
  rw [htext] at houtput
  rw [← Format.ofName?_eq_some_iff, ← Verbosity.ofName?_eq_some_iff]
  simp only [ofText, document_of_reads hmark houtput htable]
  obtain ⟨outFormat, outVerbosity⟩ := output
  cases hf : Format.ofName? format <;> cases hv : Verbosity.ofName? verbosity <;>
    simp [ofTable, putTables, decodeRecord, putEntries, outputFields, decodeChoice, Except.map,
      hf, hv]

/-! ### What is listed -/

/-- The names that a failure lists are those of what the variable should have named. -/
theorem listed_of_override_error {environment : Environment} {config : Config}
    {name value : String} {listed : List String}
    (h : override environment config = .error (.invalidVariable name value (.oneOf listed))) :
    name = "GREETER_FORMAT" ∧ listed = Format.names ∨
      name = "GREETER_VERBOSITY" ∧ listed = Verbosity.names := by
  obtain ⟨_, -, hoffends, -⟩ := override_eq_error_iff.mp h
  cases hoffends with
  | noFormat => exact Or.inl ⟨rfl, rfl⟩
  | noVerbosity => exact Or.inr ⟨rfl, rfl⟩

/-- **A format and a verbosity have the same name everywhere.**  A person names one by its name
in any case of ASCII letters and between any blanks, and by nothing else.  The name is what is
printed in a document, and only the very name is read from one.  The names that are listed where
something else was written are those of all formats, or of all verbosities. -/
theorem names_agree_everywhere :
    Naming Format.parse? Format.ofName? Format.name Format.names ∧
    Naming Verbosity.parse? Verbosity.ofName? Verbosity.name Verbosity.names ∧
    (∀ config : Config, ∃ front, config.toDocument =
      front ++ outputDocument config.output.format.name config.output.verbosity.name) ∧
    (∀ (format verbosity : String) (output : Output),
      ofText (outputDocument format verbosity) = .ok (⟨{}, output⟩, []) ↔
        format = output.format.name ∧ verbosity = output.verbosity.name) ∧
    (∀ (environment : Environment) (config : Config) (name value : String)
      (listed : List String),
      override environment config = .error (.invalidVariable name value (.oneOf listed)) →
        name = "GREETER_FORMAT" ∧ listed = Format.names ∨
          name = "GREETER_VERBOSITY" ∧ listed = Verbosity.names) ∧
    Expectation.phrase (.oneOf Format.names) = "one of: text, json" ∧
    Expectation.phrase (.oneOf Verbosity.names) = "one of: quiet, normal, verbose, debug" :=
  ⟨Format.naming, Verbosity.naming, exists_front_toDocument, ofText_outputDocument,
    fun _ _ _ _ _ => listed_of_override_error, rfl, rfl⟩

/-- Capitals and an em space do not count, a dotted capital I does; of a misspelt format the
failure lists the formats. -/
theorem names_agree_everywhere_of_odd_spellings :
    let environment : Environment :=
      fun name => if name = "GREETER_FORMAT" then some (bytesOf "xml") else none
    Format.parse? "\u2003JsOn\n" = some .json ∧ Verbosity.parse? "qu\u0130et" = none ∧
      ofText (outputDocument "json" "quiet") = .ok (⟨{}, ⟨.json, .quiet⟩⟩, []) ∧
      override environment {} =
        .error (.invalidVariable "GREETER_FORMAT" "xml" (.oneOf Format.names)) := by
  intro environment
  obtain ⟨hformat, hverbosity, -, hread, hlisted, -, -⟩ := names_agree_everywhere
  have hfailure : override environment {} =
      .error (.invalidVariable "GREETER_FORMAT" "xml" (.oneOf ["text", "json"])) := by
    decide +kernel
  refine ⟨(hformat.parse_iff _ _).mpr (by decide +kernel),
    hverbosity.ascii _ ⟨'\u0130', by decide +kernel, by decide⟩,
    (hread "json" "quiet" ⟨.json, .quiet⟩).mpr ⟨rfl, rfl⟩, ?_⟩
  rcases hlisted environment {} _ _ _ hfailure with ⟨-, hnames⟩ | ⟨hother, -⟩
  · rw [← hnames]
    exact hfailure
  · exact absurd hother (by decide)

end Config

end Salutation
