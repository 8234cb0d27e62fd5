/-
The line on which a key stands.

The search reads lines, not the document: a line that starts with a bracket and has a
closing one names the table of the lines after it, and a key's line starts with the key
and an equals sign.  A key of the root also counts as found where a header names a table
of that name or below it.  The first line that qualifies wins.
-/
import Salutation.Text.Blank
import Salutation.Text.Lines

namespace Salutation.Config

open Text

/-- The text of a header line: what stands between the opening brackets, one or two, and
the first closing one. -/
def headerText? (line : List Char) : Option (List Char) :=
  match line with
  | '[' :: rest =>
    let inner :=
      match rest with
      | '[' :: inner => inner
      | _ => rest
    if ']' ∈ inner then some (trim (inner.takeWhile (· ≠ ']'))) else none
  | _ => none

/-- Whether a line gives a value to a key: the key, blanks, and an equals sign. -/
def isKeyLine (key line : List Char) : Bool :=
  key.isPrefixOf line && (trimStart (line.drop key.length)).head? = some '='

/-- Whether a header names a table of the root, or a table below it. -/
def headsTable (key headerText : List Char) : Bool :=
  headerText = key || (key ++ ['.']).isPrefixOf headerText

/-- The number of the first line for a key of a table, where `number` is that of the first
line given and `current` the text of the last header before it. -/
def keyLineFrom (table : Option (List Char)) (key : List Char) :
    Nat → Option (List Char) → List (List Char) → Option Nat
  | _, _, [] => none
  | number, current, line :: more =>
    let line := trimStart line
    match headerText? line with
    | some headerText =>
      if table = none && headsTable key headerText then some number
      else keyLineFrom table key (number + 1) (some headerText) more
    | none =>
      if current = table && isKeyLine key line then some number
      else keyLineFrom table key (number + 1) current more

/-- The line of a key of a table among lines, counted from one; the root has no name. -/
def keyLineAmong? (lines : List (List Char)) (table : Option String) (key : String) : Option Nat :=
  keyLineFrom (table.map String.toList) key.toList 1 none lines

/-- The line of a key of a table in a file. -/
def keyLine? (content : List Char) (table : Option String) (key : String) : Option Nat :=
  keyLineAmong? (lines content) table key

end Salutation.Config
