/-
Reports: a fault with the line it stands on.

The line is shown with its number in a gutter as wide as the number, and the faulty stretch
is underlined.  Columns count characters from one.  The underline is as long as the stretch
has bytes, but never reaches past the line's own length in bytes and is never empty.
-/
import Salutation.Text.Lines
import Salutation.Text.Utf8
import Salutation.Toml.Refusal

namespace Salutation.Toml

/-- A place in a text by line and column, both counted from one, and the text of the line. -/
structure Place where
  line : Nat
  column : Nat
  content : List Char
  deriving Repr, DecidableEq

/-- The place where a rest of a text starts.  The very end of a text counts as the place
behind its last character, on that character's line. -/
def placeAt (text rest : List Char) : Place :=
  let index := text.length - rest.length
  let settled := min index (text.length - 1)
  let before := text.take settled
  let line := before.count '\n'
  let lineStart := (before.reverse.takeWhile (· ≠ '\n')).length
  let column := lineStart + (index - settled)
  ⟨line + 1, column + 1, (Text.stretches text).getD line []⟩

/-- The text of a stretch. -/
def Span.extract (span : Span) : List Char :=
  span.start.take (span.start.length - span.stop.length)

/-- A report of a fault: its place, its line with the stretch underlined, and what is wrong. -/
def report (text : List Char) (span : Span) (message : String) : String :=
  let place := placeAt text span.start
  let number := toString place.line
  let gutter := String.ofList (List.replicate (number.length + 1) ' ')
  let room := Utf8.size place.content - (place.column - 1)
  let marks := max 1 (min (Utf8.size span.extract) room)
  "TOML parse error at line " ++ number ++ ", column " ++ toString place.column ++ "\n" ++
    gutter ++ "|\n" ++
    number ++ " | " ++ String.ofList place.content ++ "\n" ++
    gutter ++ "|" ++ String.ofList (List.replicate place.column ' ') ++
    String.ofList (List.replicate marks '^') ++ "\n" ++
    message ++ "\n"

namespace Refusal

/-- The line of a refusal, counted from one. -/
def line (refusal : Refusal) (text : List Char) : Nat := (placeAt text refusal.rest).line

/-- The report of a refusal, which has a place and no extent. -/
def report (refusal : Refusal) (text : List Char) : String :=
  Toml.report text ⟨refusal.rest, refusal.rest⟩ refusal.cause.message

end Refusal

end Salutation.Toml
