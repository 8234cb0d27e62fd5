/-
The record of a greeting: what is written for it.

As text, the greeting itself; as JSON, an event on one line.  Either way a line feed ends
it.  None of it is written in one go: the line feed is a write of its own, and an event is
written in fragments.
-/
import Salutation.Config
import Salutation.Json.Value

namespace Salutation

/-- The event that announces a greeting. -/
def greetingEvent (greeting : String) : Json.Value :=
  .object [("event", .string "greeting"), ("message", .string greeting)]

/-- What is written for a greeting, without the line feed. -/
def Format.line (format : Format) (greeting : String) : List Char :=
  match format with
  | .text => greeting.toList
  | .json => Json.compact (greetingEvent greeting)

/-- The record of a greeting: its line and the line feed that ends it. -/
def Format.record (format : Format) (greeting : String) : Bytes :=
  Utf8.encode (format.line greeting ++ ['\n'])

/-- The writes that a greeting takes, without the line feed. -/
def Format.fragments (format : Format) (greeting : String) : List (List Char) :=
  match format with
  | .text => [greeting.toList]
  | .json => Json.fragments (greetingEvent greeting)

/-- The record of a greeting in the pieces in which it is written. -/
def Format.pieces (format : Format) (greeting : String) : List Bytes :=
  (format.fragments greeting ++ [['\n']]).map Utf8.encode

end Salutation
