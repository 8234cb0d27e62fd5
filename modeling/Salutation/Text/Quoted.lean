/-
Quoted text: a text shown between double quotes so that every character of it is visible.

A quote and a backslash get a backslash before them, tab, line feed, carriage return and
NUL have short names, and any other character without a glyph is spelled by its number.
-/
import Salutation.Text.Glyphless
import Salutation.Text.Hex

namespace Salutation.Text

/-- How a character shows inside quotes. -/
def quotedChar (c : Char) : List Char :=
  if c = '\x00' then ['\\', '0']
  else if c = '\t' then ['\\', 't']
  else if c = '\r' then ['\\', 'r']
  else if c = '\n' then ['\\', 'n']
  else if c = '\\' || c = '"' then ['\\', c]
  else if isGlyphless c then ['\\', 'u', '\x7b'] ++ hexDigits c.toNat ++ ['\x7d']
  else [c]

/-- A text between quotes. -/
def quoted (text : List Char) : List Char :=
  '"' :: text.flatMap quotedChar ++ ['"']

end Salutation.Text
