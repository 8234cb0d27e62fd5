/-
Printing a configuration.

As a document, it is a file that loads to the same configuration; as JSON, it has the same
tables and fields in the same order.
-/
import Salutation.Config
import Salutation.Json.Value
import Salutation.Toml.Writer

namespace Salutation.Config

/-- A line that gives a field its value. -/
def fieldLine (key value : String) : List Char :=
  key.toList ++ [' ', '=', ' '] ++ Toml.writeString value.toList ++ ['\n']

/-- A configuration as a document. -/
def toDocument (config : Config) : List Char :=
  "[greeting]\n".toList ++
    fieldLine "name" config.greeting.name ++
    fieldLine "message" config.greeting.message ++
    "\n[output]\n".toList ++
    fieldLine "format" config.output.format.name ++
    fieldLine "verbosity" config.output.verbosity.name

/-- A configuration as a JSON value. -/
def toJson (config : Config) : Json.Value :=
  .object [
    ("greeting", .object [
      ("name", .string config.greeting.name),
      ("message", .string config.greeting.message)]),
    ("output", .object [
      ("format", .string config.output.format.name),
      ("verbosity", .string config.output.verbosity.name)])]

/-- A configuration as indented JSON text, without a line ending at its end. -/
def toJsonText (config : Config) : List Char := Json.pretty config.toJson

end Salutation.Config
