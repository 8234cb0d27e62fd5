/-
Refusals: why and where a text is no TOML document.

A reader takes a text and gives back what it read with the rest of the text, or a refusal.
Where the thing to be read may be missing there is a third outcome: nothing is read if it
does not start there.  Once it has started there is no way back, and whatever does not
belong to it is refused.
-/
import Salutation.Toml.Basic

namespace Salutation.Toml

/-- Why a text is refused. -/
inductive Cause where
  /-- No key starts where one is needed. -/
  | key
  /-- A key without its equals sign. -/
  | equals
  /-- No value starts where one is needed. -/
  | value
  /-- A number without a digit where one is needed. -/
  | digit
  /-- A date or time that the calendar or the clock does not have. -/
  | moment
  /-- A number beyond its range. -/
  | range
  /-- A string that holds something it may not, or that never ends. -/
  | text
  /-- An array without its closing bracket. -/
  | array
  /-- An inline table without its closing brace. -/
  | inlineTable
  /-- A header without its closing bracket, or brackets. -/
  | header (closing : String)
  /-- More on a line than belongs there. -/
  | lineEnd
  /-- Values inside values, beyond the limit. -/
  | nesting
  /-- A key or table for the second time; the table it is in, if known. -/
  | duplicate (name : String) (within : Option (List String))
  /-- A key that passes through a value that is no table. -/
  | notATable (path : List String) (kind : String)
  deriving Repr, DecidableEq

/-- A refusal: what is left of the text where it happens, and its cause. -/
structure Refusal where
  rest : List Char
  cause : Cause
  deriving Repr, DecidableEq

/-- A refusal at the start of the given rest of the text. -/
def refuse {α : Type} (rest : List Char) (cause : Cause) : Except Refusal α :=
  .error ⟨rest, cause⟩

/-- Puts a character in front of what a reader read. -/
def push (c : Char) (result : Except Refusal (List Char × List Char)) :
    Except Refusal (List Char × List Char) :=
  match result with
  | .ok (text, rest) => .ok (c :: text, rest)
  | .error refusal => .error refusal

namespace Cause

/-- A dotted path in words. -/
def dottedName (path : List String) : String :=
  String.intercalate "." path

/-- The explanation of a refusal. -/
def message : Cause → String
  | .key => "invalid key"
  | .equals => "expected `.`, `=`"
  | .value => "invalid string\nexpected `\"`, `'`"
  | .digit => "invalid number\nexpected digit"
  | .moment => "invalid date-time"
  | .range => "number out of range"
  | .text => "invalid string"
  | .array => "invalid array\nexpected `]`"
  | .inlineTable => "invalid inline table\nexpected `\x7d`"
  | .header closing => "invalid table header\nexpected `.`, `" ++ closing ++ "`"
  | .lineEnd => "expected newline, `#`"
  | .nesting => "recursion limit exceeded"
  | .duplicate name none => "duplicate key `" ++ name ++ "`"
  | .duplicate name (some []) => "duplicate key `" ++ name ++ "` in document root"
  | .duplicate name (some path) =>
    "duplicate key `" ++ name ++ "` in table `" ++ dottedName path ++ "`"
  | .notATable path kind =>
    "dotted key `" ++ dottedName path ++ "` attempted to extend non-table type (" ++ kind ++ ")"

end Cause

end Salutation.Toml
