/-
What stands between the parts of a document: spaces, line endings and comments.

Within a line only spaces and tabs may stand between parts.  A line ends with a line feed,
with or without a carriage return before it, or with the text; a comment may come first.
Between the elements of an array all of it is allowed, but there a comment needs its line
feed and a carriage return needs one too.
-/
import Salutation.Toml.Refusal

namespace Salutation.Toml

/-- A space or a tab. -/
def isSpace (c : Char) : Bool := c = ' ' || c = '\t'

/-- A text without the spaces at its start. -/
def skipSpaces (text : List Char) : List Char := text.dropWhile isSpace

/-- What follows a line ending, if one is next. -/
def newline? : List Char → Option (List Char)
  | '\n' :: rest => some rest
  | '\r' :: '\n' :: rest => some rest
  | _ => none

/-- A character that strings and comments may hold as it is: a tab, or anything that is no
control. -/
def isPlain (c : Char) : Bool :=
  c = '\t' || (' ' ≤ c && c ≠ '\x7f')

/-- The end of a line: spaces, perhaps a comment, and a line ending or the end of the text. -/
def lineEnd (text : List Char) : Except Refusal (List Char) :=
  let text := skipSpaces text
  let text :=
    match text with
    | '#' :: rest => rest.dropWhile isPlain
    | _ => text
  match text with
  | [] => .ok []
  | _ =>
    match newline? text with
    | some rest => .ok rest
    | none => refuse text .lineEnd

/-- What follows spaces, line endings and comments.  The flag says whether the text starts
inside a comment. -/
def afterFillerFrom : Bool → List Char → Except Refusal (List Char)
  | inComment, [] => if inComment then refuse [] .lineEnd else .ok []
  | _, '\n' :: rest => afterFillerFrom false rest
  | _, '\r' :: '\n' :: rest => afterFillerFrom false rest
  | inComment, c :: rest =>
    if inComment then
      if isPlain c then afterFillerFrom true rest else refuse (c :: rest) .lineEnd
    else if isSpace c then afterFillerFrom false rest
    else if c = '#' then afterFillerFrom true rest
    else if c = '\r' then refuse (c :: rest) .lineEnd
    else .ok (c :: rest)

/-- What follows the spaces, line endings and comments at the start of a text. -/
def afterFiller (text : List Char) : Except Refusal (List Char) := afterFillerFrom false text

end Salutation.Toml
