/-
A whole run of the program.

The command line is read first, then the configuration file is found, then variables and
options override what it says.  Only then is it settled what is logged, so what happened
before is logged afterwards.  Last comes the command: a greeting, or the configuration that
would have been used for it.
-/
import Salutation.CommandLine.Parse
import Salutation.Config.Discovery
import Salutation.Config.Overrides
import Salutation.Config.Print
import Salutation.Delivery.Deliver
import Salutation.Log.Filter

namespace Salutation

/-- What a run sees of the world. -/
structure World where
  files : Files
  environment : Environment
  /-- The absolute path of the working directory. -/
  workingDirectory : Path
  /-- The standard output, with nothing written yet. -/
  output : Writer := {}

/-- A line of diagnostics. -/
inductive Diagnostic where
  | logged (event : Log.Event)
  | text (s : String)
  deriving Repr, DecidableEq

/-- What a run leaves behind. -/
structure Outcome where
  exitCode : Nat
  output : Bytes
  diagnostics : List Diagnostic
  deriving Repr, DecidableEq

/-- A diagnostic as it is printed, with the time of log lines. -/
def Diagnostic.print (time : String) : Diagnostic → String
  | .logged event => event.line time
  | .text s => s

/-- What a run was about when it failed. -/
inductive Stage where
  | loading
  | overriding
  | writing
  deriving Repr, DecidableEq

/-- What a run was about when it failed, in words. -/
def Stage.phrase : Stage → String
  | .loading => "failed to load configuration"
  | .overriding => "failed to apply environment overrides"
  | .writing => "failed to write greeting"

/-- A text with every line but the first indented. -/
def indentRest (indentation : String) (text : List Char) : List Char :=
  text.flatMap fun c => if c = '\n' then '\n' :: indentation.toList else [c]

/-- The causes of a failure, the last one at the root of it. -/
def Failure.causes (failure : Failure) : List String :=
  match failure with
  | .io error => [failure.message, error.message]
  | _ => [failure.message]

/-- The causes of a failure as they are listed: numbered from zero if there are several. -/
def listCauses (causes : List String) : String :=
  let entry (label rest cause : String) : String :=
    label ++ String.ofList (indentRest rest cause.toList) ++ "\n"
  match causes with
  | [cause] => entry "    " "    " cause
  | _ =>
    String.join (causes.zipIdx.map fun (cause, number) =>
      entry ("    " ++ toString number ++ ": ") "       " cause)

/-- The report of a run that failed. -/
def failureReport (stage : Stage) (failure : Failure) : String :=
  "Error: " ++ stage.phrase ++ "\n\nCaused by:\n" ++ listCauses failure.causes

/-- A failure and what the run was about. -/
structure RunFailure where
  stage : Stage
  failure : Failure
  deriving Repr, DecidableEq

/-- A result in which a failure knows its stage. -/
def during {α : Type} (stage : Stage) (result : Except Failure α) : Except RunFailure α :=
  result.mapError (⟨stage, ·⟩)

/-- A run whose configuration is settled: where it was loaded from, and what it came to. -/
structure Resolved where
  loaded : Config.Loaded
  config : Config
  deriving Repr, DecidableEq

/-- Settles the configuration of a request: the file, then variables, then options. -/
def resolve (world : World) (request : CommandLine.Request) : Except RunFailure Resolved :=
  match during .loading
      (Config.discover world.files world.environment request.file world.workingDirectory) with
  | .error failure => .error failure
  | .ok loaded =>
    match during .overriding (Config.override world.environment loaded.config) with
    | .error failure => .error failure
    | .ok config => .ok ⟨loaded, request.apply config⟩

/-- The events about where the configuration was loaded from. -/
def loadEvents (loaded : Config.Loaded) : List Log.Event :=
  (match loaded.source.path? with
    | some path => .usingFile path
    | none => .usingDefaults) :: loaded.warnings.map .unknownKey

/-- The configuration as it is printed. -/
def printedConfig (config : Config) : List Char :=
  match config.output.format with
  | .text => config.toDocument
  | .json => config.toJsonText ++ ['\n']

/-- How a run ends: its exit code, and what is said about it. -/
structure Ending where
  exitCode : Nat
  said : List Diagnostic

/-- The end of a run in which all went well. -/
def Ending.good : Ending := ⟨0, []⟩

/-- The end of a run that fails. -/
def RunFailure.ending (failure : RunFailure) : Ending :=
  ⟨1, [.text (failureReport failure.stage failure.failure)]⟩

/-- The end of a run that cannot print the configuration, which nothing provides for: it is broken
off.  The exit code is that of a build that unwinds; a release build aborts instead, and has none
of its own.  Of what is said the message is kept, and the place in the program is not. -/
def Ending.abrupt (error : IoError) : Ending :=
  ⟨101, [.text ("failed printing to stdout: " ++ error.message ++ "\n")]⟩

/-- What carrying out a command comes to. -/
structure Done where
  output : Bytes
  events : List Log.Event
  ending : Ending

/-- Prints a configuration. -/
def performPrint (output : Writer) (config : Config) : Done :=
  match output.write (Utf8.encode (printedConfig config)) with
  | (writer, .ok ()) => ⟨writer.written, [], .good⟩
  | (writer, .error error) => ⟨writer.written, [], .abrupt error⟩

/-- Greets. -/
def performGreeting (output : Writer) (config : Config) : Done :=
  let delivered := carryOut config.output.format output config.greeting
  let ending :=
    match delivered.result with
    | .ok _ => .good
    | .error failure => (RunFailure.mk .writing failure).ending
  ⟨delivered.writer.written, delivered.events, ending⟩

/-- Carries out the command of a request. -/
def perform (world : World) (request : CommandLine.Request) (config : Config) : Done :=
  if request.printsConfig then performPrint world.output config
  else performGreeting world.output config

/-- The complaints about directives that are ignored. -/
def ignoredDirectives (reading : Log.Reading) : List Diagnostic :=
  reading.ignored.map fun (part, mistake) =>
    .text ("ignoring `" ++ part ++ "`: " ++ mistake.message ++ "\n")

/-- Carries out a request. -/
def runRequest (world : World) (request : CommandLine.Request) : Outcome :=
  match resolve world request with
  | .error failure => ⟨failure.ending.exitCode, [], failure.ending.said⟩
  | .ok resolved =>
    let reading := Log.reading world.environment resolved.config.output.verbosity
    let done := perform world request resolved.config
    let shown := (loadEvents resolved.loaded ++ done.events).filter (Log.shows reading.directives)
    ⟨done.ending.exitCode, done.output,
      ignoredDirectives reading ++ shown.map .logged ++ done.ending.said⟩

/-- Runs the program with the given arguments. -/
def run (world : World) (arguments : List Bytes) : Outcome :=
  match CommandLine.parse arguments with
  | .error stop =>
    if stop.isMistake then ⟨2, [], [.text stop.text]⟩
    else ⟨0, (world.output.write (bytesOf stop.text)).1.written, []⟩
  | .ok request => runRequest world request

end Salutation
