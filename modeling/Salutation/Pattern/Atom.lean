/-
Single places of a pattern: a character as it stands, or what a backslash makes of the
character behind it.

In a spaced pattern blanks and comments may stand between any two of its signs, also within
the digits of a code point, but not behind the backslash itself.
-/
import Salutation.Pattern.Switch
import Salutation.Text.Blank
import Salutation.Text.Hex

namespace Salutation.Pattern

/-- Drops blanks and comments, which run from a number sign to the end of the line. -/
def dropFiller (inComment : Bool) : List Char → List Char
  | [] => []
  | c :: rest =>
    if inComment then dropFiller (c ≠ '\n') rest
    else if Text.isBlank c then dropFiller false rest
    else if c = '#' then dropFiller true rest
    else c :: rest

/-- The text behind blanks and comments, where they do not count. -/
def skip (spaced : Bool) (text : List Char) : List Char :=
  if spaced then dropFiller false text else text

/-- A character that stands for itself. -/
structure Literal where
  char : Char
  /-- It was spelled as a byte, by two digits. -/
  isByte : Bool := false
  deriving Repr, DecidableEq

/-- What one place of a pattern asks for. -/
inductive Atom where
  | literal (literal : Literal)
  /-- A digit, a blank or a word's character, or anything but that. -/
  | kind (negated : Bool)
  /-- The start or the end of the text or of a line. -/
  | anchor
  /-- The start, the end or the inside of a word. -/
  | wordBoundary
  deriving Repr, DecidableEq

/-- Reads the digits of a code point. -/
def readCodePoint (spaced : Bool) (value : Nat) : Nat → List Char → Option (Char × List Char)
  | 0, rest => if value.isValidChar then some (Char.ofNat value, rest) else none
  | digits + 1, text =>
    match skip spaced text with
    | c :: rest =>
      match Text.hexValue? c with
      | some digit => readCodePoint spaced (value * 16 + digit) digits rest
      | none => none
    | [] => none

/-- The control character that a letter spells behind a backslash. -/
def control? (c : Char) : Option Char :=
  match c with
  | 'a' => some '\x07'
  | 'f' => some '\x0c'
  | 't' => some '\t'
  | 'n' => some '\n'
  | 'r' => some '\r'
  | 'v' => some '\x0b'
  | _ => none

/-- Whether a backslash before a character makes it stand for itself: it is of ASCII, but no
letter and no digit, and does not mark an end of a word. -/
def standsForItself (c : Char) : Bool :=
  c.toNat < 0x80 && !c.isAlphanum && c ≠ '<' && c ≠ '>'

/-- Reads what follows a backslash.  Properties of characters are not known, so the letters
for them are refused like all that have no meaning. -/
def readEscape (spaced : Bool) (text : List Char) : Option (Atom × List Char) :=
  let codePoint (digits : Nat) (isByte : Bool) (rest : List Char) : Option (Atom × List Char) :=
    (readCodePoint spaced 0 digits rest).map fun (c, rest) => (.literal ⟨c, isByte⟩, rest)
  match text with
  | [] => none
  | 'x' :: rest => codePoint 2 true rest
  | 'u' :: rest => codePoint 4 false rest
  | 'U' :: rest => codePoint 8 false rest
  | c :: rest =>
    if c ∈ ['d', 's', 'w'] then some (.kind false, rest)
    else if c ∈ ['D', 'S', 'W'] then some (.kind true, rest)
    else if c ∈ ['A', 'z'] then some (.anchor, rest)
    else if c ∈ ['b', 'B', '<', '>'] then some (.wordBoundary, rest)
    else
      match control? c with
      | some control => some (.literal { char := control }, rest)
      | none => if standsForItself c then some (.literal { char := c }, rest) else none

end Salutation.Pattern
