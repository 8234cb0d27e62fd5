/-
Variables that override the configuration.

Four variables each replace one field.  They are read in a fixed order and the first one
with an unusable value is the failure, whatever the others hold.  A name and a message are
taken as they are, empty ones included.
-/
import Salutation.Config
import Salutation.Failure
import Salutation.World.Environment

namespace Salutation.Config

/-- The value of a variable, which must be text if it is set. -/
def readVariable (environment : Environment) (name : String) : Except Failure (Option String) :=
  match environment name with
  | none => .ok none
  | some bytes =>
    match Utf8.decode? bytes with
    | some text => .ok (some (String.ofList text))
    | none =>
      .error (.invalidVariable name (String.ofList (Utf8.decodeLossy bytes)) .validText)

/-- The value of a variable that must name one of several choices, if it is set. -/
def readChoice {α : Type} (environment : Environment) (name : String)
    (parse? : String → Option α) (allowed : List String) : Except Failure (Option α) :=
  match readVariable environment name with
  | .error failure => .error failure
  | .ok none => .ok none
  | .ok (some value) =>
    match parse? value with
    | some choice => .ok (some choice)
    | none => .error (.invalidVariable name value (.oneOf allowed))

/-- A configuration with the fields replaced whose variables are set. -/
def override (environment : Environment) (config : Config) : Except Failure Config := do
  let name? ← readVariable environment "GREETER_NAME"
  let message? ← readVariable environment "GREETER_MESSAGE"
  let format? ← readChoice environment "GREETER_FORMAT" Format.parse? Format.names
  let verbosity? ← readChoice environment "GREETER_VERBOSITY" Verbosity.parse? Verbosity.names
  return {
    greeting := {
      name := name?.getD config.greeting.name
      message := message?.getD config.greeting.message }
    output := {
      format := format?.getD config.output.format
      verbosity := verbosity?.getD config.output.verbosity } }

end Salutation.Config
