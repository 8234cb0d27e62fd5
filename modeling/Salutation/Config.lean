/-
The configuration of a greeting.

What is said (a name and the message before it), in which format it is written, and how
much is logged about it.  The names of formats and verbosities stand in three places: the
names in a file, which are read and written alike, those that a person may give in a
variable, and those that are listed where a variable gives none of them.
-/
import Salutation.Text.Blank
import Salutation.Text.LowerCase

namespace Salutation

/-- How a greeting is written. -/
inductive Format where
  | text
  | json
  deriving Repr, DecidableEq

/-- How much is logged. -/
inductive Verbosity where
  | quiet
  | normal
  | verbose
  | debug
  deriving Repr, DecidableEq

/-- A name as a person types it: blanks around it and the case of its letters do not count. -/
def plainName (value : String) : String :=
  String.ofList (Text.lower (Text.trim value.toList))

namespace Format

/-- The formats, in the order in which they are listed. -/
def all : List Format := [.text, .json]

/-- The name of a format in a file. -/
def name : Format → String
  | .text => "text"
  | .json => "json"

/-- The format with exactly this name in a file. -/
def ofName? (s : String) : Option Format := all.find? (·.name = s)

/-- The names that are listed where a variable names no format. -/
def names : List String := ["text", "json"]

/-- The format that a person names. -/
def parse? (value : String) : Option Format :=
  match plainName value with
  | "text" => some .text
  | "json" => some .json
  | _ => none

end Format

namespace Verbosity

/-- The verbosities, from the least to the most. -/
def all : List Verbosity := [.quiet, .normal, .verbose, .debug]

/-- The name of a verbosity in a file. -/
def name : Verbosity → String
  | .quiet => "quiet"
  | .normal => "normal"
  | .verbose => "verbose"
  | .debug => "debug"

/-- The verbosity with exactly this name in a file. -/
def ofName? (s : String) : Option Verbosity := all.find? (·.name = s)

/-- The names that are listed where a variable names no verbosity. -/
def names : List String := ["quiet", "normal", "verbose", "debug"]

/-- The verbosity that a person names. -/
def parse? (value : String) : Option Verbosity :=
  match plainName value with
  | "quiet" => some .quiet
  | "normal" => some .normal
  | "verbose" => some .verbose
  | "debug" => some .debug
  | _ => none

/-- One step more; nothing is above `debug`. -/
def next : Verbosity → Verbosity
  | .quiet => .normal
  | .normal => .verbose
  | .verbose => .debug
  | .debug => .debug

/-- A verbosity raised by a number of steps. -/
def raised (verbosity : Verbosity) : Nat → Verbosity
  | 0 => verbosity
  | steps + 1 => verbosity.next.raised steps

end Verbosity

namespace Config

/-- What is said. -/
structure Greeting where
  /-- The one who is greeted. -/
  name : String := "siris web framework"
  /-- What stands before the name. -/
  message : String := "Hello"
  deriving Repr, DecidableEq

/-- How it is said. -/
structure Output where
  format : Format := .text
  verbosity : Verbosity := .normal
  deriving Repr, DecidableEq

end Config

/-- A configuration; every field has a default of its own. -/
structure Config where
  greeting : Config.Greeting := {}
  output : Config.Output := {}
  deriving Repr, DecidableEq

end Salutation
