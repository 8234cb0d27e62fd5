/-
The lines of a text.

A line feed ends a line, and one carriage return right before it belongs to the ending.
What follows the last line feed is a line only if it is not empty, and keeps a carriage
return at its end: without the line feed it is an ordinary character.
-/

namespace Salutation.Text

/-- The lines of a text, without their endings. -/
def lines : List Char → List (List Char)
  | [] => []
  | '\n' :: rest => [] :: lines rest
  | '\r' :: '\n' :: rest => [] :: lines rest
  | c :: rest =>
    match lines rest with
    | [] => [[c]]
    | line :: more => (c :: line) :: more

/-- The stretches between line feeds, with carriage returns kept; one more than there are line feeds. -/
def stretches : List Char → List (List Char)
  | [] => [[]]
  | '\n' :: rest => [] :: stretches rest
  | c :: rest =>
    match stretches rest with
    | [] => [[c]]
    | line :: more => (c :: line) :: more

end Salutation.Text
