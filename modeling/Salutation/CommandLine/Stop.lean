/-
Why a command line is not carried out.

It may ask for help or for the version, or it may be wrong.  An error shows the usage of the
scope it happens in; where a long option is at fault, the usage shows the options used so
far in place of the general form.  If the fault is a value that an option does not take, the
options of the program itself are shown as one choice.
-/
import Salutation.CommandLine.Option

namespace Salutation.CommandLine

/-- A subject of help. -/
inductive Topic where
  | main
  | config
  | help
  deriving Repr, DecidableEq

/-- The subject that a scope is. -/
def Scope.topic : Scope → Topic
  | .main => .main
  | .config => .config

/-- The name of a topic on the command line. -/
def Topic.program : Topic → String
  | .main => "greeter"
  | .config => "greeter config"
  | .help => "greeter help"

/-- A part of a usage. -/
inductive UsagePart where
  | option (opt : Opt)
  /-- Any of the options that have the program do something. -/
  | choice
  deriving Repr, DecidableEq

/-- A part of a usage in words. -/
def UsagePart.shown : UsagePart → String
  | .option opt => opt.shown
  | .choice =>
    let options := Opt.all.filter (!·.isQuestion)
    "<" ++ String.intercalate "|" (options.map Opt.shown) ++ ">"

/-- A usage: the general form of a topic if it has no parts, else its parts. -/
structure Usage where
  topic : Topic
  parts : List UsagePart
  deriving Repr, DecidableEq

namespace Usage

/-- What may follow the program's name. -/
def generalForm : Topic → String
  | .main => " [OPTIONS] [COMMAND]"
  | .config => " [OPTIONS]"
  | .help => " [COMMAND]..."

/-- The line of a usage. -/
def line (usage : Usage) : String :=
  let form :=
    if usage.parts.isEmpty then generalForm usage.topic
    else String.join (usage.parts.map fun part => " " ++ part.shown)
  "Usage: " ++ usage.topic.program ++ form

/-- The general usage of a scope. -/
def general (scope : Scope) : Usage := ⟨scope.topic, []⟩

/-- The usage of a scope with the options in use. -/
def listing (scope : Scope) (used : List Opt) : Usage := ⟨scope.topic, used.map .option⟩

/-- The usage of a scope beside an option that stands after others. -/
def beside (scope : Scope) (opt : Opt) (used : List Opt) : Usage :=
  if scope = .main && !used.isEmpty then
    ⟨.main, (if opt.isQuestion then [.option opt] else []) ++ [.choice]⟩
  else listing scope (if opt ∈ used then used else used ++ [opt])

end Usage

/-- What is wrong with a command line. -/
inductive Mistake where
  /-- An argument that fits nowhere.  It may be a command that stands behind a double dash. -/
  | unknownArgument (shown : String) (isCommand : Bool)
  | unknownCommand (word : String)
  | repeated (opt : Opt)
  | valueMissing (opt : Opt)
  | valueUnwanted (opt : Opt) (value : String)
  | invalidText
  deriving Repr, DecidableEq

/-- Why a command line is not carried out. -/
inductive Stop where
  | help (topic : Topic)
  | version
  | mistake (what : Mistake) (usage : Usage)
  deriving Repr, DecidableEq

/-- The first line of an error, and a tip below it. -/
def Mistake.line : Mistake → String
  | .unknownArgument shown isCommand =>
    "unexpected argument '" ++ shown ++ "' found" ++
      if isCommand then
        "\n\n  tip: subcommand '" ++ shown ++ "' exists; to use it, remove the '--' before it"
      else ""
  | .unknownCommand word => "unrecognized subcommand '" ++ word ++ "'"
  | .repeated opt => "the argument '" ++ opt.shown ++ "' cannot be used multiple times"
  | .valueMissing opt => "a value is required for '" ++ opt.shown ++ "' but none was supplied"
  | .valueUnwanted opt value =>
    "unexpected value '" ++ value ++ "' for '" ++ opt.shown ++ "' found; no more were expected"
  | .invalidText => "invalid UTF-8 was detected in one or more arguments"

/-- Whether an error shows a usage. -/
def Mistake.showsUsage : Mistake → Bool
  | .valueMissing _ => false
  | _ => true

/-- Spaces that make a text as wide as wanted. -/
def padding (width : Nat) (text : String) : String :=
  String.ofList (List.replicate (width - text.length) ' ')

/-- Two columns of text, the second one aligned. -/
def columns (rows : List (String × String)) : String :=
  let width := (rows.map (·.1.length)).foldl max 0
  String.join (rows.map fun (left, right) =>
    "  " ++ left ++ padding (width + 2) left ++ right ++ "\n")

/-- An option in a list of options: its letter and its long form. -/
def Opt.listed (opt : Opt) : String :=
  (match opt.letter? with
    | some c => "-" ++ String.singleton c ++ ", "
    | none => "    ") ++ opt.shown

/-- The list of a scope's options. -/
def Scope.optionList (scope : Scope) : String :=
  "Options:\n" ++ columns (scope.options.map fun opt => (opt.listed, opt.purpose))

/-- What the command that prints the configuration is for. -/
def configPurpose : String := "Print the resolved configuration instead of greeting"

/-- What the command that prints help is for. -/
def helpPurpose : String := "Print this message or the help of the given subcommand(s)"

/-- The help on a topic. -/
def Topic.text : Topic → String
  | .main =>
    "Formats a greeting from a name and a message and prints it\n\n" ++
      (Usage.mk .main []).line ++ "\n\nCommands:\n" ++
      columns [("config", configPurpose), ("help", helpPurpose)] ++ "\n" ++
      Scope.main.optionList
  | .config =>
    configPurpose ++ "\n\n" ++ (Usage.mk .config []).line ++ "\n\n" ++ Scope.config.optionList
  | .help =>
    helpPurpose ++ "\n\n" ++ (Usage.mk .help []).line ++ "\n\nArguments:\n" ++
      columns [("[COMMAND]...", "Print help for the subcommand(s)")]

/-- The version of the program. -/
def versionText : String := "greeter 0.1.0\n"

namespace Stop

/-- What is printed instead of carrying out the command line. -/
def text : Stop → String
  | .help topic => topic.text
  | .version => versionText
  | .mistake what usage =>
    -- The help command has no options, so there is no help on it to point to.
    let pointer :=
      if usage.topic = .help then "\n" else "\n\nFor more information, try '--help'.\n"
    "error: " ++ what.line ++ (if what.showsUsage then "\n\n" ++ usage.line else "") ++ pointer

/-- Whether the command line is in error. -/
def isMistake : Stop → Bool
  | .mistake _ _ => true
  | _ => false

end Stop

end Salutation.CommandLine
