/-
Environment variables, whose values are bytes and need not be text.
-/
import Salutation.World.Path

namespace Salutation

/-- The values of the variables that are set. -/
abbrev Environment := String → Option Bytes

namespace Environment

/-- The value of a variable, if it is set and is text. -/
def text? (environment : Environment) (name : String) : Option String :=
  ((environment name).bind Utf8.decode?).map String.ofList

end Environment

end Salutation
