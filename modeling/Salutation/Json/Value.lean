/-
JSON values and how they are written.

Only strings and objects are ever written.  Inside a string a quote, a backslash and the
controls below the space are escaped, five of them by a letter and the others by number;
everything else stands as it is.

A value is written on one line or with a line to each member, and the two differ only in
what stands between the parts.  So there is one writer, and a layout says what it puts there.

A value on one line reaches its recipient in many small writes: every mark is one, and so is
every escape and every stretch between two of them.  The fragments say which, because a
recipient that runs out of room does so in the middle of one.
-/
import Salutation.Text.Hex
import Salutation.Text.Utf8

namespace Salutation.Json

/-- A value: a string, or an object with its members in order. -/
inductive Value where
  | string (s : String)
  | object (members : List (String × Value))

/-- How a character is written inside a string. -/
def escape (c : Char) : List Char :=
  if c = '"' then ['\\', '"']
  else if c = '\\' then ['\\', '\\']
  else if c = '\x08' then ['\\', 'b']
  else if c = '\x0c' then ['\\', 'f']
  else if c = '\n' then ['\\', 'n']
  else if c = '\r' then ['\\', 'r']
  else if c = '\t' then ['\\', 't']
  else if c < ' ' then
    ['\\', 'u', '0', '0', Text.lowerHex (c.toNat / 16), Text.lowerHex (c.toNat % 16)]
  else [c]

/-- Writes a string. -/
def writeString (text : List Char) : List Char :=
  '"' :: text.flatMap escape ++ ['"']

/-! ### Whole values -/

/-- What stands between the parts of a value. -/
structure Layout where
  /-- Before a member at a depth, and before the brace behind the last one. -/
  gap : Nat → List Char
  /-- Between a colon and the value behind it. -/
  afterColon : List Char

mutual

/-- Writes a value at a depth. -/
def write (layout : Layout) (depth : Nat) : Value → List Char
  | .string s => writeString s.toList
  | .object [] => ['\x7b', '\x7d']
  | .object (first :: more) =>
    '\x7b' :: writeMembers layout (depth + 1) (first :: more) ++ layout.gap depth ++ ['\x7d']

/-- Writes members at a depth, with commas between them. -/
def writeMembers (layout : Layout) (depth : Nat) : List (String × Value) → List Char
  | [] => []
  | [(name, value)] =>
    layout.gap depth ++ writeString name.toList ++ ':' :: layout.afterColon ++
      write layout depth value
  | (name, value) :: more =>
    layout.gap depth ++ writeString name.toList ++ ':' :: layout.afterColon ++
      write layout depth value ++ ',' :: writeMembers layout depth more

end

/-- The layout of a value on one line, without spaces. -/
def oneLine : Layout := ⟨fun _ => [], []⟩

/-- The layout with a line to each member, indented by its depth. -/
def indented : Layout := ⟨fun depth => '\n' :: List.replicate (2 * depth) ' ', [' ']⟩

/-- Writes a value on one line. -/
def compact (value : Value) : List Char := write oneLine 0 value

/-- Writes a value with a line to each member. -/
def pretty (value : Value) : List Char := write indented 0 value

/-! ### The writes that a value on one line takes -/

/-- Whether a character stands as it is inside a string. -/
def isRaw (c : Char) : Bool := escape c = [c]

/-- The writes that the characters of a string take: one for each escape, and one for each
stretch without any. -/
def textFragments (text : List Char) : List (List Char) :=
  (text.splitBy fun a b => isRaw a && isRaw b).map (·.flatMap escape)

/-- The writes that a string takes. -/
def stringFragments (text : List Char) : List (List Char) :=
  ['"'] :: textFragments text ++ [['"']]

mutual

/-- The writes that a value on one line takes. -/
def fragments : Value → List (List Char)
  | .string s => stringFragments s.toList
  | .object members => ['\x7b'] :: memberFragments members ++ [['\x7d']]

/-- The writes that members on one line take. -/
def memberFragments : List (String × Value) → List (List Char)
  | [] => []
  | [(name, value)] => stringFragments name.toList ++ [':'] :: fragments value
  | (name, value) :: more =>
    stringFragments name.toList ++ [':'] :: fragments value ++ [','] :: memberFragments more

end

end Salutation.Json
