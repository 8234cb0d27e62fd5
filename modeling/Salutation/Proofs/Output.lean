/-
What a run leaves on the standard output.

A run writes there at one place only, where it carries out its command, and it comes to that
place after every step that can fail before it.  So a run that fails in one of these steps
leaves nothing there, and events and warnings, which are kept apart from what is written,
never get there at all.

What a greeting leaves there is settled by `deliver_filled`: its record, as far as the
output has room for it.  A run that succeeds had room for all of it, and then nothing of the
run is left in the output but the format, the message and the name.
-/
import Salutation.Proofs.Delivery.Deliver
import Salutation.Proofs.Resolve

namespace Salutation

/-- The record of the greeting that a configuration is for. -/
def Config.greetingRecord (config : Config) : Bytes :=
  config.output.format.record (config.greeting.message ++ " " ++ config.greeting.name)

/-- A run that is to greet, and the configuration that is settled for it. -/
def Greets (world : World) (arguments : List Bytes) (resolved : Resolved) : Prop :=
  ∃ request, CommandLine.parse arguments = .ok request ∧ request.printsConfig = false ∧
    resolve world request = .ok resolved

/-- A run that fails before it comes to its command: in its command line, in finding or
loading the configuration, or in the variables that override it. -/
inductive FailsEarly (world : World) (arguments : List Bytes) : Prop where
  | commandLine {what : CommandLine.Mistake} {usage : CommandLine.Usage}
      (hparse : CommandLine.parse arguments = .error (.mistake what usage))
  | loading {request : CommandLine.Request} {failure : Failure}
      (hparse : CommandLine.parse arguments = .ok request)
      (hdiscover : Config.discover world.files world.environment request.file
        world.workingDirectory = .error failure)
  | overriding {request : CommandLine.Request} {loaded : Config.Loaded} {failure : Failure}
      (hparse : CommandLine.parse arguments = .ok request)
      (hdiscover : Config.discover world.files world.environment request.file
        world.workingDirectory = .ok loaded)
      (hoverride : Config.override world.environment loaded.config = .error failure)

section

variable {world : World} {arguments : List Bytes}

/-! ### Runs that fail early -/

/-- Without a settled configuration a run ends before its command. -/
theorem run_of_resolve_error {request : CommandLine.Request} {failure : RunFailure}
    (hparse : CommandLine.parse arguments = .ok request)
    (hresolve : resolve world request = .error failure) :
    run world arguments = ⟨1, [], failure.ending.said⟩ := by
  simp only [run, hparse, runRequest, hresolve]
  rfl

/-- A run that fails early writes nothing, and its exit code says that it failed. -/
theorem run_of_failsEarly (h : FailsEarly world arguments) :
    (run world arguments).output = [] ∧ (run world arguments).exitCode ≠ 0 := by
  cases h with
  | commandLine hparse => simp [run, hparse, CommandLine.Stop.isMistake]
  | loading hparse hdiscover =>
      simp [run_of_resolve_error hparse (resolve_of_discover_error hdiscover)]
  | overriding hparse hdiscover hoverride =>
      have hresolve := resolve_of_discover_ok hdiscover
      rw [hoverride] at hresolve
      simp [run_of_resolve_error hparse hresolve]

/-- An accepted command line either fails early or has a configuration settled for it. -/
theorem failsEarly_or_resolves {request : CommandLine.Request}
    (hparse : CommandLine.parse arguments = .ok request) :
    FailsEarly world arguments ∨ ∃ resolved, resolve world request = .ok resolved := by
  cases hdiscover : Config.discover world.files world.environment request.file
      world.workingDirectory with
  | error failure => exact Or.inl (.loading hparse hdiscover)
  | ok loaded =>
      cases hoverride : Config.override world.environment loaded.config with
      | error failure => exact Or.inl (.overriding hparse hdiscover hoverride)
      | ok config =>
          have hresolve := resolve_of_discover_ok hdiscover
          rw [hoverride] at hresolve
          exact Or.inr ⟨_, hresolve⟩

/-! ### Runs that greet -/

/-- What is within a limit is taken whole. -/
theorem firstBytes_of_not_exceeds {limit : Option Nat} {stream : Bytes}
    (h : exceeds limit stream.length = false) : firstBytes limit stream = stream := by
  cases limit with
  | none => rfl
  | some room =>
      rw [exceeds_some, decide_eq_false_iff_not, Nat.not_lt] at h
      exact List.take_of_length_le h

theorem verdict_eq_ok_iff {writer : Writer} {count : Nat} :
    writer.verdict count = .ok () ↔
      exceeds writer.limit count = false ∧ writer.flushError = none := by
  unfold Writer.verdict
  cases exceeds writer.limit count <;> cases writer.flushError <;> simp

/-- A verdict is an error for want of room, or else that of the flush. -/
theorem verdict_eq_error_iff {writer : Writer} {count : Nat} {error : IoError} :
    writer.verdict count = .error error ↔
      exceeds writer.limit count = true ∧ writer.fullError = error ∨
        exceeds writer.limit count = false ∧ writer.flushError = some error := by
  unfold Writer.verdict
  cases exceeds writer.limit count <;> cases writer.flushError <;> simp

/-- An output that holds nothing is offered the record of the greeting. -/
theorem deliver_greetingRecord {output : Writer} (houtput : output.written = [])
    (config : Config) :
    deliver config.output.format output (greet config.greeting.message config.greeting.name) =
      (output.filled config.greetingRecord, output.verdict config.greetingRecord.length) := by
  have hfilled := deliver_filled config.output.format output []
    (greet config.greeting.message config.greeting.name)
  rwa [Writer.filled_nil houtput] at hfilled

/-- A greeting offers the output its record, and ends well if the delivery does. -/
theorem performGreeting_record {output : Writer} (houtput : output.written = [])
    (config : Config) :
    (performGreeting output config).output = firstBytes output.limit config.greetingRecord ∧
      ((performGreeting output config).ending.exitCode = 0 ↔
        output.verdict config.greetingRecord.length = .ok ()) := by
  unfold performGreeting carryOut
  dsimp only
  rw [deliver_greetingRecord houtput config]
  cases output.verdict config.greetingRecord.length with
  | ok => exact ⟨rfl, by simp [Ending.good]⟩
  | error error => exact ⟨rfl, by simp [RunFailure.ending]⟩

/-- A run that greets succeeds if the output takes the whole record and can be flushed, and
then the record is all that it writes. -/
theorem run_of_greets {resolved : Resolved} (hworld : world.output.written = [])
    (h : Greets world arguments resolved) :
    ((run world arguments).exitCode = 0 ↔
      exceeds world.output.limit resolved.config.greetingRecord.length = false ∧
        world.output.flushError = none) ∧
    ((run world arguments).exitCode = 0 →
      (run world arguments).output = resolved.config.greetingRecord) := by
  obtain ⟨request, hparse, hgreets, hresolve⟩ := h
  obtain ⟨hwritten, hgood⟩ := performGreeting_record hworld resolved.config
  have hcode : (run world arguments).exitCode =
      (performGreeting world.output resolved.config).ending.exitCode := by
    simp [run, hparse, runRequest, hresolve, perform, hgreets]
  have houtput : (run world arguments).output =
      (performGreeting world.output resolved.config).output := by
    simp [run, hparse, runRequest, hresolve, perform, hgreets]
  rw [verdict_eq_ok_iff] at hgood
  rw [hcode, houtput, hwritten]
  exact ⟨hgood, fun hzero => firstBytes_of_not_exceeds (hgood.mp hzero).1⟩

end

/-- **A greeting that succeeds writes its record and nothing else**, and that is to its reader the
message, a space and the name: as they are and a line feed behind them, or as the message of the
event on the one line that is written.  So two greetings that succeed write the same if they have
the same name, message and format, whatever else is different in their worlds and their command
lines.  A run that is to greet succeeds unless it fails early or its output fails, and a run that
fails early writes nothing. -/
theorem run_output {world : World} (hworld : world.output.written = [])
    (arguments : List Bytes) :
    (∀ request, CommandLine.parse arguments = .ok request → request.printsConfig = false →
      FailsEarly world arguments ∨ ∃ resolved, Greets world arguments resolved) ∧
    (∀ resolved, Greets world arguments resolved →
      ((run world arguments).exitCode = 0 ↔
        exceeds world.output.limit resolved.config.greetingRecord.length = false ∧
          world.output.flushError = none) ∧
      ((run world arguments).exitCode = 0 →
        (run world arguments).output = resolved.config.greetingRecord ∧
        resolved.config.output.format.IsRecord
          (resolved.config.greeting.message ++ " " ++ resolved.config.greeting.name)
          (run world arguments).output)) ∧
    (∀ (other : World) (others : List Bytes) (resolved settled : Resolved),
      other.output.written = [] →
      Greets world arguments resolved → (run world arguments).exitCode = 0 →
      Greets other others settled → (run other others).exitCode = 0 →
      resolved.config.greeting.name = settled.config.greeting.name →
      resolved.config.greeting.message = settled.config.greeting.message →
      resolved.config.output.format = settled.config.output.format →
      (run world arguments).output = (run other others).output) ∧
    (FailsEarly world arguments →
      (run world arguments).output = [] ∧ (run world arguments).exitCode ≠ 0) := by
  refine ⟨?_, fun resolved hgreets => ?_, ?_, run_of_failsEarly⟩
  · intro request hparse hgreets
    have hsettles : FailsEarly world arguments ∨ ∃ resolved, resolve world request = .ok resolved :=
      failsEarly_or_resolves hparse
    rcases hsettles with hfails | ⟨resolved, hresolve⟩
    · exact Or.inl hfails
    · exact Or.inr ⟨resolved, request, hparse, hgreets, hresolve⟩
  · obtain ⟨hsucceeds, houtput⟩ := run_of_greets hworld hgreets
    refine ⟨hsucceeds, fun hzero => ⟨houtput hzero, ?_⟩⟩
    rw [houtput hzero]
    exact isRecord_record _ _
  · intro other others resolved settled hother hgreets hzero hgreets' hzero' hname hmessage hformat
    rw [(run_of_greets hworld hgreets).2 hzero, (run_of_greets hother hgreets').2 hzero']
    unfold Config.greetingRecord
    rw [hname, hmessage, hformat]

/-- A name from a file with an unknown key, with everything logged, and the same name from a
variable, with nothing logged, make the same output; with the option for JSON it is one line that
means the same greeting, and an unknown option makes none. -/
theorem run_output_of_two_layers :
    let logged : World := ⟨fun _ => .file (bytesOf "nam = 1\n[greeting]\nname = 'Ada'\n"),
      fun name => if name = "RUST_LOG" then some (bytesOf "trace") else none, .ofString "/work", {}⟩
    let silent : World := ⟨fun _ => .missing,
      fun name => if name = "GREETER_NAME" then some (bytesOf "Ada")
        else if name = "GREETER_VERBOSITY" then some (bytesOf "quiet") else none,
      .ofString "/", { limit := some 10 }⟩
    (run logged [bytesOf "-vv"]).output = bytesOf "Hello Ada\n" ∧
      (run silent []).output = (run logged [bytesOf "-vv"]).output ∧
      (∃ line, (run logged [bytesOf "--json"]).output = line ++ [lineFeed] ∧ lineFeed ∉ line ∧
        readLine? line = some (.object [
          ("event", .string "greeting"), ("message", .string "Hello Ada")])) ∧
      (run silent [bytesOf "--nam=Ada"]).output = [] ∧
      (run silent [bytesOf "--nam=Ada"]).exitCode ≠ 0 := by
  intro logged silent
  have hlogged : Greets logged [bytesOf "-vv"] ⟨⟨⟨⟨"Ada", "Hello"⟩, {}⟩,
      .project (.ofString "/work/greeter.toml"),
      [⟨"nam", .ofString "/work/greeter.toml", some 1, none⟩]⟩,
      ⟨⟨"Ada", "Hello"⟩, ⟨.text, .debug⟩⟩⟩ :=
    ⟨{ verbose := 2 }, by decide +kernel, rfl, by decide +kernel⟩
  have hsilent : Greets silent [] ⟨⟨{}, .defaults, []⟩, ⟨⟨"Ada", "Hello"⟩, ⟨.text, .quiet⟩⟩⟩ :=
    ⟨{}, by decide +kernel, rfl, by decide +kernel⟩
  have hjson : Greets logged [bytesOf "--json"] ⟨⟨⟨⟨"Ada", "Hello"⟩, {}⟩,
      .project (.ofString "/work/greeter.toml"),
      [⟨"nam", .ofString "/work/greeter.toml", some 1, none⟩]⟩,
      ⟨⟨"Ada", "Hello"⟩, ⟨.json, .normal⟩⟩⟩ :=
    ⟨{ json := true }, by decide +kernel, rfl, by decide +kernel⟩
  have hnothing : logged.output.written = [] := rfl
  have hnothing' : silent.output.written = [] := rfl
  obtain ⟨-, hrecord, hsame, -⟩ := run_output hnothing [bytesOf "-vv"]
  obtain ⟨-, hrecord', -, -⟩ := run_output hnothing' []
  obtain ⟨-, hevent, -, -⟩ := run_output hnothing [bytesOf "--json"]
  obtain ⟨-, -, -, hfails⟩ := run_output hnothing' [bytesOf "--nam=Ada"]
  have hzero : (run logged [bytesOf "-vv"]).exitCode = 0 := (hrecord _ hlogged).1.mpr ⟨rfl, rfl⟩
  have hzero' : (run silent []).exitCode = 0 :=
    (hrecord' _ hsilent).1.mpr ⟨by decide +kernel, rfl⟩
  have hoption : CommandLine.parse [bytesOf "--nam=Ada"] =
      .error (.mistake (.unknownArgument "--nam" false) ⟨.main, []⟩) := by decide +kernel
  have hjsonZero : (run logged [bytesOf "--json"]).exitCode = 0 := (hevent _ hjson).1.mpr ⟨rfl, rfl⟩
  obtain ⟨line, hline, hfeed, -, hread⟩ := ((hevent _ hjson).2 hjsonZero).2
  refine ⟨?_, ?_, ⟨line, hline, hfeed, hread⟩, hfails (.commandLine hoption)⟩
  · rw [((hrecord _ hlogged).2 hzero).1]
    decide +kernel
  · exact (hsame silent [] _ _ hnothing' hlogged hzero hsilent hzero' rfl rfl rfl).symm

end Salutation
