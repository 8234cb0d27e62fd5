/-
A printed configuration as a file.

The command that prints the configuration follows the format that is settled for the run, as a
greeting does.  As text it prints the document, which loads to the configuration that was settled,
whichever layers that came from; so a project with this file starts from there.  As JSON it prints
a text that means the same configuration to a recipient of JSON.  That text starts with a brace, and
no document does, so a file with it is an error.
-/
import Salutation.Proofs.Config.Discovery
import Salutation.Proofs.Config.Fit
import Salutation.Proofs.Config.Reload
import Salutation.Proofs.Output
import Salutation.Proofs.PrintedJson

namespace Salutation

open Config (load)

/-! ### What is printed -/

/-- A configuration is printed well only if the output takes all of it. -/
theorem performPrint_output {output : Writer} {config : Config} (houtput : output.written = [])
    (h : (performPrint output config).ending.exitCode = 0) :
    (performPrint output config).output = Utf8.encode (printedConfig config) := by
  have hwrite := Writer.filled_write output [] (Utf8.encode (printedConfig config))
  rw [Writer.filled_nil houtput, List.nil_append] at hwrite
  unfold performPrint at h ⊢
  rw [hwrite] at h ⊢
  by_cases hroom : Utf8.encode (printedConfig config) = [] ∨
      exceeds output.limit (Utf8.encode (printedConfig config)).length = false
  · rw [if_pos hroom]
    rcases hroom with hempty | hroom
    · simp [hempty]
    · exact firstBytes_of_not_exceeds hroom
  · rw [if_neg hroom] at h
    cases h

/-- A run that is to print its configuration and succeeds has settled one, and prints it. -/
theorem run_of_prints {world : World} {arguments : List Bytes} {request : CommandLine.Request}
    (hworld : world.output.written = []) (hparse : CommandLine.parse arguments = .ok request)
    (hprints : request.printsConfig = true) (hzero : (run world arguments).exitCode = 0) :
    ∃ resolved, resolve world request = .ok resolved ∧
      (run world arguments).output = Utf8.encode (printedConfig resolved.config) := by
  cases hresolve : resolve world request with
  | error failure =>
      rw [run_of_resolve_error hparse hresolve] at hzero
      cases hzero
  | ok resolved =>
      have hperform : perform world request resolved.config =
          performPrint world.output resolved.config := if_pos hprints
      have hcode : (performPrint world.output resolved.config).ending.exitCode = 0 := by
        simpa [run, hparse, runRequest, hresolve, hperform] using hzero
      refine ⟨resolved, rfl, ?_⟩
      rw [← performPrint_output hworld hcode]
      simp [run, hparse, runRequest, hresolve, hperform]

/-! ### What is read again -/

/-- No document starts with a brace. -/
theorem document_brace (rest : List Char) :
    Toml.document ('\x7b' :: rest) = .error ⟨'\x7b' :: rest, .key⟩ := rfl

theorem toJsonText_brace (config : Config) : ∃ rest, config.toJsonText = '\x7b' :: rest :=
  ⟨_, rfl⟩

section

variable {files : Files} {file : Path} {config : Config}

/-- As text a configuration is printed so that it is loaded again. -/
theorem load_printed_text (hformat : config.output.format = .text)
    (hfile : files file = .file (Utf8.encode (printedConfig config))) :
    load files file = .ok (config, []) := by
  have htext : files.readText file = .ok config.toDocument := by
    simp [Files.readText, Files.read, hfile, printedConfig, hformat]
  obtain ⟨table, htable, hconfig⟩ := Config.document_toDocument config
  rw [Config.load_of_document htext htable, hconfig]
  rfl

/-- As JSON it is printed so that it is no document. -/
theorem load_printed_json (hformat : config.output.format = .json)
    (hfile : files file = .file (Utf8.encode (printedConfig config))) :
    ∃ text refusal, load files file = .error (.invalidConfig file text (.refused refusal)) := by
  obtain ⟨rest, hbrace⟩ := toJsonText_brace config
  have hprinted : printedConfig config = '\x7b' :: (rest ++ ['\n']) := by
    simp [printedConfig, hformat, hbrace]
  have hdocument : Toml.document (printedConfig config) =
      .error ⟨printedConfig config, .key⟩ := by
    rw [hprinted]
    exact document_brace _
  exact ⟨_, _, Config.load_of_unusable (.refused hfile (by simp) hdocument)⟩

/-- A printed configuration loads to itself if and only if it is printed as text. -/
theorem load_printed_iff (hfile : files file = .file (Utf8.encode (printedConfig config))) :
    load files file = .ok (config, []) ↔ config.output.format = .text := by
  cases hformat : config.output.format with
  | text => simp [load_printed_text hformat hfile]
  | json =>
      obtain ⟨text, refusal, hload⟩ := load_printed_json hformat hfile
      simp [hload]

/-- A project whose file loads starts from what the file says. -/
theorem discover_project {environment : Environment} {root : Path} {warnings : List Config.Warning}
    (hfile : files.isFile (Config.projectPath root) = true)
    (hload : load files (Config.projectPath root) = .ok (config, warnings)) :
    Config.discover files environment none root =
      .ok ⟨config, .project (Config.projectPath root), warnings⟩ := by
  have hfirst : Config.ranking environment none root =
      [] ++ (Config.projectPath root, .project (Config.projectPath root)) ::
        (Config.userPath? environment).toList.map fun path => (path, .user path) := rfl
  rw [Config.discover_of_first hfirst (by simp) hfile, Config.loadAs, hload]
  rfl

end

/-- **A run that prints its configuration and succeeds prints the one that is settled for it, and
a file with its output loads to that without warnings, if and only if the format that is settled
is text.**  So then any later run in a project with that file starts from this configuration,
whichever layers it came from.  If the format is JSON, the output is JSON: it means an object with
the fields of the configuration, and a file with it is refused because it is no document. -/
theorem printed_config_loads {world : World} {arguments : List Bytes}
    {request : CommandLine.Request} (hworld : world.output.written = [])
    (hparse : CommandLine.parse arguments = .ok request) (hprints : request.printsConfig = true)
    (hzero : (run world arguments).exitCode = 0) :
    ∃ resolved, resolve world request = .ok resolved ∧
      (∀ (files : Files) (file : Path), files file = .file (run world arguments).output →
        (load files file = .ok (resolved.config, []) ↔
          resolved.config.output.format = .text)) ∧
      (resolved.config.output.format = .text → ∀ later : World,
        later.files (Config.projectPath later.workingDirectory) =
          .file (run world arguments).output →
        Config.discover later.files later.environment none later.workingDirectory =
          .ok ⟨resolved.config, .project (Config.projectPath later.workingDirectory), []⟩) ∧
      (resolved.config.output.format = .json →
        (run world arguments).output = Utf8.encode (resolved.config.toJsonText ++ ['\n']) ∧
        (Utf8.decode? (run world arguments).output).bind Json.read? = some (.object [
          ("greeting", .object [
            ("name", .string resolved.config.greeting.name),
            ("message", .string resolved.config.greeting.message)]),
          ("output", .object [
            ("format", .string "json"),
            ("verbosity", .string resolved.config.output.verbosity.name)])]) ∧
        ∀ (files : Files) (file : Path), files file = .file (run world arguments).output →
          ∃ text refusal,
            load files file = .error (.invalidConfig file text (.refused refusal))) := by
  obtain ⟨resolved, hresolve, houtput⟩ := run_of_prints hworld hparse hprints hzero
  rw [houtput]
  refine ⟨resolved, hresolve, fun files file hfile => load_printed_iff hfile, ?_, ?_⟩
  · intro hformat later hfile
    have hregular : later.files.isFile (Config.projectPath later.workingDirectory) = true := by
      simp [Files.isFile, hfile]
    exact discover_project hregular (load_printed_text hformat hfile)
  · intro hformat
    have hprinted : Utf8.encode (printedConfig resolved.config) = printedJson resolved.config := by
      rw [printedConfig, hformat]
      rfl
    have hread := read?_printedJson resolved.config
    rw [Config.toJson, hformat] at hread
    refine ⟨hprinted, hprinted ▸ hread, fun files file hfile => ?_⟩
    exact load_printed_json hformat hfile

/-- A name from a variable, a message from a file with an unknown key, and a verbosity that is
raised: all of it is in the file that the output makes, and the unknown key is not.  With the
option for JSON it is in the object that the output means, and the output makes no such file. -/
theorem printed_config_loads_of_three_layers :
    let world : World := ⟨fun _ => .file (bytesOf
        "nam = 1\n[greeting]\nname = 'file'\nmessage = 'Hi'\n[output]\nverbosity = 'quiet'\n"),
      fun name => if name = "GREETER_NAME" then some (bytesOf "a \"b\" \\") else none,
      .ofString "/work", {}⟩
    let output := (run world [bytesOf "-v", bytesOf "config"]).output
    let json := (run world [bytesOf "config", bytesOf "--json"]).output
    let config : Config := ⟨⟨"a \"b\" \\", "Hi"⟩, ⟨.text, .normal⟩⟩
    let file := Path.ofString "greeter.toml"
    load (fun _ => .file output) file = .ok (config, []) ∧
      Config.discover (fun _ => .file output) world.environment none (.ofString "/other") =
        .ok ⟨config, .project (.ofString "/other/greeter.toml"), []⟩ ∧
      (Utf8.decode? json).bind Json.read? = some (.object [
        ("greeting", .object [("name", .string "a \"b\" \\"), ("message", .string "Hi")]),
        ("output", .object [("format", .string "json"), ("verbosity", .string "quiet")])]) ∧
      ∃ text refusal, load (fun _ => .file json) file =
        .error (.invalidConfig file text (.refused refusal)) := by
  intro world output json config file
  have hparse : CommandLine.parse [bytesOf "-v", bytesOf "config"] =
      .ok { verbose := 1, printsConfig := true } := by decide +kernel
  have hconfig : (resolve world { verbose := 1, printsConfig := true }).map Resolved.config =
      .ok config := by decide +kernel
  have hjson : CommandLine.parse [bytesOf "config", bytesOf "--json"] =
      .ok { json := true, printsConfig := true } := by decide +kernel
  have hjsonConfig : (resolve world { json := true, printsConfig := true }).map Resolved.config =
      .ok ⟨⟨"a \"b\" \\", "Hi"⟩, ⟨.json, .quiet⟩⟩ := by decide +kernel
  have hnothing : world.output.written = [] := rfl
  obtain ⟨resolved, hresolve, hload, hlater, -⟩ :=
    printed_config_loads hnothing hparse rfl (by decide +kernel)
  obtain ⟨settled, hsettle, -, -, hobject⟩ :=
    printed_config_loads hnothing hjson rfl (by decide +kernel)
  have hsame : resolved.config = config := by
    rw [hresolve] at hconfig
    exact Except.ok.inj hconfig
  have hsame' : settled.config = ⟨⟨"a \"b\" \\", "Hi"⟩, ⟨.json, .quiet⟩⟩ := by
    rw [hsettle] at hjsonConfig
    exact Except.ok.inj hjsonConfig
  have hpath : Config.projectPath (.ofString "/other") = .ofString "/other/greeter.toml" := by
    decide +kernel
  rw [hsame] at hload hlater
  rw [hsame'] at hobject
  obtain ⟨-, hread, hrefused⟩ := hobject rfl
  rw [← hpath]
  exact ⟨(hload (fun _ => .file output) file rfl).mpr rfl,
    hlater rfl ⟨fun _ => .file output, world.environment, .ofString "/other", {}⟩ rfl,
    hread, hrefused (fun _ => .file json) file rfl⟩

/-- A variable can settle the format, so without the option for it a run may succeed and print
JSON, which does not load. -/
theorem printed_config_of_variable :
    let world : World := ⟨fun _ => .missing,
      fun name => if name = "GREETER_FORMAT" then some (bytesOf "json") else none,
      .ofString "/work", {}⟩
    let printed := run world [bytesOf "config"]
    let text := ("\x7b\n  \"greeting\": \x7b\n    \"name\": \"siris web framework\",\n" ++
      "    \"message\": \"Hello\"\n  \x7d,\n  \"output\": \x7b\n    \"format\": \"json\",\n" ++
      "    \"verbosity\": \"normal\"\n  \x7d\n\x7d\n").toList
    let file := Path.ofString "greeter.toml"
    CommandLine.parse [bytesOf "config"] = .ok { json := false, printsConfig := true } ∧
      resolve world { json := false, printsConfig := true } =
        .ok ⟨⟨{}, .defaults, []⟩, { output := { format := .json } }⟩ ∧
      printed.exitCode = 0 ∧ printed.output = Utf8.encode text ∧
      load (fun _ => .file printed.output) file =
        .error (.invalidConfig file text (.refused ⟨text, .key⟩)) := by
  decide +kernel

end Salutation
