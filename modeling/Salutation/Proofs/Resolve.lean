/-
The layers of a configuration.

A run settles its configuration in steps: a file is found and loaded, variables replace
fields, options replace fields once more.  Here the steps are put together and seen from one
field: its value is that of the highest layer that sets it.  The file's layer is what its
text sets, looked up in the document, and not what is left of it after the other layers.

Two steps can fail, and they do not depend on the layers above them.  So an option never
saves a run from a variable that cannot be used, not even one for the same field.
-/
import Salutation.Proofs.Config.Overrides
import Salutation.Run

namespace Salutation

/-- The variables that override fields of the configuration. -/
def overrideVariables : List String :=
  ["GREETER_NAME", "GREETER_MESSAGE", "GREETER_FORMAT", "GREETER_VERBOSITY"]

/-- Field by field the value of the highest layer that sets it: the options, the variables,
the file, and last the default.  An option can only switch to JSON, and only raise the
verbosity that the layers below it give. -/
def highestLayers (request : CommandLine.Request) (environment file : Config.Layer) : Config where
  greeting := {
    name := (request.name.or (environment.name.or file.name)).getD ({} : Config.Greeting).name
    message := (request.message.or (environment.message.or file.message)).getD
      ({} : Config.Greeting).message }
  output := {
    format := if request.json then .json else (environment.format.or file.format).getD .text
    verbosity := ((environment.verbosity.or file.verbosity).getD .normal).raised request.verbose }

/-- Options over variables over a file are the highest layers. -/
theorem apply_over_eq (request : CommandLine.Request) (environment file : Config.Layer) :
    request.apply (environment.over file.toConfig) = highestLayers request environment file := by
  simp [highestLayers, CommandLine.Request.apply, Config.Layer.over, Config.Layer.toConfig,
    Option.getD_or]

section

variable {world : World} {request : CommandLine.Request}

/-- Nothing is settled if no configuration can be found and loaded. -/
theorem resolve_of_discover_error {failure : Failure}
    (h : Config.discover world.files world.environment request.file world.workingDirectory =
      .error failure) :
    resolve world request = .error ⟨.loading, failure⟩ := by
  simp [resolve, h, during, Except.mapError]

/-- A configuration that is found is settled by the variables and the options. -/
theorem resolve_of_discover_ok {loaded : Config.Loaded}
    (h : Config.discover world.files world.environment request.file world.workingDirectory =
      .ok loaded) :
    resolve world request =
      match Config.override world.environment loaded.config with
      | .error failure => .error ⟨.overriding, failure⟩
      | .ok config => .ok ⟨loaded, request.apply config⟩ := by
  simp only [resolve, h, during, Except.mapError]
  cases Config.override world.environment loaded.config <;> rfl

end

/-- **A run resolves each field to the value of the highest layer that sets it**, and fails
only if no configuration can be found and loaded, or else if a variable is unusable.

A failure to load is the same whatever the four variables and the other options are, and an
unusable variable is a failure whatever the options are. -/
theorem resolve_layers (world : World) (request : CommandLine.Request) :
    (∀ failure,
      Config.discover world.files world.environment request.file world.workingDirectory =
        .error failure →
      ∀ (other : World) (options : CommandLine.Request), other.files = world.files →
        other.workingDirectory = world.workingDirectory →
        (∀ name ∉ overrideVariables, other.environment name = world.environment name) →
        options.file = request.file →
        resolve other options = .error ⟨.loading, failure⟩) ∧
    ∀ loaded,
      Config.discover world.files world.environment request.file world.workingDirectory =
        .ok loaded →
      (¬Config.AreUsable world.environment →
        ∃ failure, resolve world request = .error ⟨.overriding, failure⟩) ∧
      (Config.AreUsable world.environment →
        resolve world request = .ok ⟨loaded, highestLayers request
          (.ofEnvironment world.environment) (.ofFile world.files loaded.source.path?)⟩) := by
  refine ⟨?_, ?_⟩
  · intro failure hdiscover other options hfiles hdirectory hvariables hfile
    have hsame : Config.discover other.files other.environment options.file
        other.workingDirectory = .error failure := by
      rw [hfiles, hdirectory, hfile, ← hdiscover]
      refine Config.discover_congr ?_
      intro name hname
      refine hvariables name ?_
      revert name
      decide
    simp [resolve, hsame, during, Except.mapError]
  · intro loaded hdiscover
    have hloaded := Config.discover_eq hdiscover
    refine ⟨?_, ?_⟩
    · intro hunusable
      obtain ⟨failure, hfailure⟩ := Config.override_of_not_areUsable hunusable loaded.config
      exact ⟨failure, by simp [resolve, hdiscover, hfailure, during, Except.mapError]⟩
    · intro husable
      have hoverride := Config.override_of_areUsable husable loaded.config
      rw [← apply_over_eq, ← hloaded]
      simp [resolve, hdiscover, hoverride, during, Except.mapError]

/-- An empty name on the command line hides the variable's, which hides the file's; the
message is the file's, the format the variable's, and the file's verbosity is raised.  With
another file name nothing is loaded, whatever else is asked for. -/
theorem resolve_layers_all_at_once :
    resolve ⟨fun path => if path = .ofString "c.toml" then .file (bytesOf
          "[greeting]\nname = 'file'\nmessage = 'Hi'\n[output]\nverbosity = 'verbose'\n")
        else .missing,
      fun name => if name = "GREETER_NAME" then some (bytesOf "variable")
        else if name = "GREETER_FORMAT" then some (bytesOf " JSON ") else none,
      .ofString "/work", {}⟩
      { name := some "", verbose := 1, file := some (.ofString "c.toml") } =
        .ok ⟨⟨⟨⟨"file", "Hi"⟩, ⟨.text, .verbose⟩⟩, .explicit (.ofString "c.toml"), []⟩,
          ⟨⟨"", "Hi"⟩, ⟨.json, .debug⟩⟩⟩ ∧
    resolve ⟨fun _ => .missing,
      fun name => if name ∈ overrideVariables then some [0xFF] else none, .ofString "/work", {}⟩
      { name := some "", json := true, file := some (.ofString "d.toml") } =
        .error ⟨.loading, .configNotFound (.ofString "d.toml")⟩ := by
  refine ⟨?_, ?_⟩
  · refine (((resolve_layers _ _).2 ⟨⟨⟨"file", "Hi"⟩, ⟨.text, .verbose⟩⟩,
      .explicit (.ofString "c.toml"), []⟩ ?_).2 ⟨?_, ?_, ?_, ?_⟩).trans ?_
    all_goals decide +kernel
  · refine (resolve_layers ⟨fun _ => .missing, fun _ => none, .ofString "/work", {}⟩
      { file := some (.ofString "d.toml") }).1 _ rfl _ _ rfl rfl ?_ rfl
    intro name hname
    exact if_neg hname

end Salutation
