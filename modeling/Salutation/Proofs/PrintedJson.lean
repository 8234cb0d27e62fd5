/-
A printed configuration as JSON.

What the command that prints the configuration writes for a recipient is a text of several lines.
To the recipient it means one object, because the layout is nothing but blanks, and the strings in
it are the fields of the configuration as they are.  A format and a verbosity stand in it under
their names, so a recipient can put all four values where a configuration comes from, into a file
or into variables, and nothing about the configuration is lost.
-/
import Salutation.Proofs.Config.Naming
import Salutation.Proofs.Json.Reader
import Salutation.Run

namespace Salutation

open Config (override ofText outputDocument)

/-! ### The text and what it means -/

theorem Config.toJson_injective : Function.Injective Config.toJson := by
  intro config other h
  obtain ⟨⟨name, message⟩, format, verbosity⟩ := config
  obtain ⟨⟨name', message'⟩, format', verbosity'⟩ := other
  simp only [toJson, Json.Value.object.injEq, Json.Value.string.injEq, List.cons.injEq,
    Prod.mk.injEq, true_and, and_true] at h
  obtain ⟨⟨rfl, rfl⟩, hformat, hverbosity⟩ := h
  rw [Format.name_injective hformat, Verbosity.name_injective hverbosity]

/-- What is printed as JSON, up to the end of its last line. -/
def printedJson (config : Config) : Bytes := Utf8.encode (config.toJsonText ++ ['\n'])

/-- To a recipient the text means the fields of the configuration. -/
theorem read?_printedJson (config : Config) :
    (Utf8.decode? (printedJson config)).bind Json.read? = some config.toJson := by
  have hread : Json.read? (config.toJsonText ++ ['\n']) = some config.toJson := by
    refine Json.read?_write_append Json.indented_isBlank 0 config.toJson ?_
    intro c hc
    rw [List.mem_singleton.mp hc]
    rfl
  rw [printedJson, Utf8.decode?_encode, Option.bind_some, hread]

theorem printedJson_injective : Function.Injective printedJson := by
  intro config other h
  have hsame : some config.toJson = some other.toJson := by
    rw [← read?_printedJson config, ← read?_printedJson other, h]
  exact Config.toJson_injective (Option.some.inj hsame)

/-! ### The names in it -/

/-- Texts that stand for a format and a verbosity wherever these are read: no others do in a
file, and variables that hold them settle the output. -/
structure NamesOutput (format verbosity : String) (output : Config.Output) : Prop where
  ofFile : ∀ other second : String,
    ofText (outputDocument other second) = .ok (⟨{}, output⟩, []) ↔
      other = format ∧ second = verbosity
  ofVariables : ∀ (environment : Environment) (config : Config),
    environment "GREETER_NAME" = none → environment "GREETER_MESSAGE" = none →
    environment "GREETER_FORMAT" = some (bytesOf format) →
    environment "GREETER_VERBOSITY" = some (bytesOf verbosity) →
      override environment config = .ok ⟨config.greeting, output⟩

@[simp] theorem Format.parse?_name (format : Format) : Format.parse? format.name = some format := by
  cases format <;> decide +kernel

@[simp] theorem Verbosity.parse?_name (verbosity : Verbosity) :
    Verbosity.parse? verbosity.name = some verbosity := by
  cases verbosity <;> decide +kernel

/-- The names of a format and a verbosity are such texts. -/
theorem namesOutput (output : Config.Output) :
    NamesOutput output.format.name output.verbosity.name output := by
  refine ⟨fun format verbosity => Config.ofText_outputDocument format verbosity output, ?_⟩
  intro environment config hname hmessage hformat hverbosity
  have husable : Config.AreUsable environment := by
    refine ⟨?_, ?_, ?_, ?_⟩
    · simp [Config.isUsable, hname]
    · simp [Config.isUsable, hmessage]
    · simp [Config.isUsable, Config.text?_of_text hformat]
    · simp [Config.isUsable, Config.text?_of_text hverbosity]
  have hlayer : Config.Layer.ofEnvironment environment =
      ⟨none, none, some output.format, some output.verbosity⟩ := by
    simp only [Config.Layer.ofEnvironment, Config.text?_of_unset hname,
      Config.text?_of_unset hmessage, Config.text?_of_text hformat,
      Config.text?_of_text hverbosity, Option.bind_some, Format.parse?_name,
      Verbosity.parse?_name]
  rw [Config.override_of_areUsable husable, hlayer]
  rfl

/-! ### Runs -/

/-- Into an output that takes everything the configuration is printed. -/
theorem run_printing {world : World} {arguments : List Bytes} {request : CommandLine.Request}
    {resolved : Resolved} (houtput : world.output = {})
    (hparse : CommandLine.parse arguments = .ok request) (hprints : request.printsConfig = true)
    (hresolve : resolve world request = .ok resolved) :
    (run world arguments).exitCode = 0 ∧
      (run world arguments).output = Utf8.encode (printedConfig resolved.config) := by
  have hperform : perform world request resolved.config =
      ⟨Utf8.encode (printedConfig resolved.config), [], .good⟩ := by
    simp [perform, hprints, houtput, performPrint, Writer.write, Writer.taken]
  simp [run, hparse, runRequest, hresolve, hperform, Ending.good]

/-- **The configuration can be read off what is printed as JSON.**  The text is UTF-8 and means an
object with the two tables and their fields and nothing else: the name and the message as they
are, and the format and the verbosity under the very names that are read from a file and from
variables.  So the text determines the configuration.  It is what a run prints that is to print
its configuration and has settled on JSON. -/
theorem printed_json_decodes :
    (∀ config : Config, ∃ format verbosity : String, NamesOutput format verbosity config.output ∧
      (Utf8.decode? (printedJson config)).bind Json.read? = some (.object [
        ("greeting", .object [
          ("name", .string config.greeting.name),
          ("message", .string config.greeting.message)]),
        ("output", .object [
          ("format", .string format),
          ("verbosity", .string verbosity)])])) ∧
    Function.Injective printedJson ∧
    ∀ (world : World) (arguments : List Bytes) (request : CommandLine.Request)
      (resolved : Resolved), world.output = {} → CommandLine.parse arguments = .ok request →
      request.printsConfig = true → resolve world request = .ok resolved →
      resolved.config.output.format = .json →
        (run world arguments).exitCode = 0 ∧
          (run world arguments).output = printedJson resolved.config := by
  refine ⟨fun config => ⟨_, _, namesOutput config.output, read?_printedJson config⟩,
    printedJson_injective, ?_⟩
  intro world arguments request resolved houtput hparse hprints hresolve hjson
  obtain ⟨hcode, hprinted⟩ := run_printing houtput hparse hprints hresolve
  refine ⟨hcode, ?_⟩
  rw [hprinted, printedConfig, hjson]
  rfl

/-- Quotes, a line feed, a control and a character beyond the first plane in a name from a
variable, and a verbosity that the variable spells with a capital. -/
theorem printed_json_decodes_of_quotes :
    let world : World := ⟨fun _ => .missing,
      fun name => if name = "GREETER_NAME" then some (bytesOf "a \"b\"\n\x07\\ 😀")
        else if name = "GREETER_VERBOSITY" then some (bytesOf "Quiet") else none,
      .ofString "/work", {}⟩
    let printed := run world [bytesOf "config", bytesOf "--json"]
    printed.exitCode = 0 ∧ (Utf8.decode? printed.output).bind Json.read? = some (.object [
      ("greeting", .object [
        ("name", .string "a \"b\"\n\x07\\ 😀"), ("message", .string "Hello")]),
      ("output", .object [("format", .string "json"), ("verbosity", .string "quiet")])]) := by
  intro world printed
  let config : Config := ⟨⟨"a \"b\"\n\x07\\ 😀", "Hello"⟩, ⟨.json, .quiet⟩⟩
  have hparse : CommandLine.parse [bytesOf "config", bytesOf "--json"] =
      .ok { json := true, printsConfig := true } := by decide +kernel
  have hresolve : resolve world { json := true, printsConfig := true } =
      .ok ⟨⟨{}, .defaults, []⟩, config⟩ := by decide +kernel
  obtain ⟨hdecodes, -, hruns⟩ := printed_json_decodes
  obtain ⟨hcode, houtput⟩ := hruns world _ _ _ rfl hparse rfl hresolve rfl
  obtain ⟨format, verbosity, hnames, hread⟩ := hdecodes config
  -- A file with these two names describes the same output, so they are the ones that are printed.
  have hfile : ofText (outputDocument "json" "quiet") = .ok (⟨{}, config.output⟩, []) :=
    (Config.ofText_outputDocument "json" "quiet" config.output).mpr ⟨rfl, rfl⟩
  obtain ⟨rfl, rfl⟩ := (hnames.ofFile "json" "quiet").mp hfile
  refine ⟨hcode, ?_⟩
  rw [houtput, hread]

end Salutation
