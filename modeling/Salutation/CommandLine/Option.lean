/-
The options of the command line.

There are two scopes: the program itself, and its command that prints the configuration.
Some options belong to both, and then the command's own value counts.
-/
import Salutation.Config
import Salutation.World.Path

namespace Salutation.CommandLine

/-- An option. -/
inductive Opt where
  | name
  | message
  | config
  | json
  | verbose
  | help
  | version
  deriving Repr, DecidableEq

/-- A part of the program with options of its own. -/
inductive Scope where
  /-- The program itself. -/
  | main
  /-- The command that prints the configuration. -/
  | config
  deriving Repr, DecidableEq

namespace Opt

/-- All options, in the order in which they are listed. -/
def all : List Opt := [.name, .message, .config, .json, .verbose, .help, .version]

/-- The long name of an option. -/
def long : Opt → String
  | .name => "name"
  | .message => "message"
  | .config => "config"
  | .json => "json"
  | .verbose => "verbose"
  | .help => "help"
  | .version => "version"

/-- The letter of an option. -/
def letter? : Opt → Option Char
  | .name => some 'n'
  | .message => some 'm'
  | .config => some 'c'
  | .json => none
  | .verbose => some 'v'
  | .help => some 'h'
  | .version => some 'V'

/-- The word for an option's value. -/
def valueName? : Opt → Option String
  | .name => some "NAME"
  | .message => some "MESSAGE"
  | .config => some "CONFIG"
  | _ => none

/-- Whether an option takes a value. -/
def takesValue (opt : Opt) : Bool := opt.valueName?.isSome

/-- An option as errors and usages show it. -/
def shown (opt : Opt) : String :=
  let tail :=
    match opt.valueName? with
    | some word => " <" ++ word ++ ">"
    | none => if opt = .verbose then "..." else ""
  "--" ++ opt.long ++ tail

/-- Whether an option asks for a text about the program instead of its work. -/
def isQuestion (opt : Opt) : Bool := opt = .help || opt = .version

/-- Whether an option belongs to a scope. -/
def isIn (opt : Opt) : Scope → Bool
  | .main => true
  | .config => opt = .config || opt = .json || opt = .verbose || opt = .help

/-- What an option is for. -/
def purpose : Opt → String
  | .name => "Name to greet (overrides config and GREETER_NAME)"
  | .message => "Message placed before the name (overrides config and GREETER_MESSAGE)"
  | .config => "Config file to use instead of ./greeter.toml or the user config"
  | .json => "Emit JSON instead of plain text"
  | .verbose => "Verbosity level (-v, -vv)"
  | .help => "Print help"
  | .version => "Print version"

end Opt

namespace Scope

/-- The options of a scope. -/
def options (scope : Scope) : List Opt := Opt.all.filter (·.isIn scope)

/-- The option of a scope with a long name. -/
def long? (scope : Scope) (name : String) : Option Opt :=
  scope.options.find? (·.long = name)

/-- The option of a scope with a letter. -/
def letter? (scope : Scope) (c : Char) : Option Opt :=
  scope.options.find? (·.letter? = some c)

end Scope

/-- What a command line asks for. -/
structure Request where
  name : Option String := none
  message : Option String := none
  json : Bool := false
  /-- How many steps the verbosity is raised by. -/
  verbose : Nat := 0
  /-- The configuration file to use. -/
  file : Option Path := none
  /-- Whether to print the configuration instead of greeting. -/
  printsConfig : Bool := false
  deriving Repr, DecidableEq

/-- A configuration with what a request asks for in place of what it says. -/
def Request.apply (request : Request) (config : Config) : Config :=
  { greeting := {
      name := request.name.getD config.greeting.name
      message := request.message.getD config.greeting.message }
    output := {
      format := if request.json then .json else config.output.format
      verbosity := config.output.verbosity.raised request.verbose } }

end Salutation.CommandLine
