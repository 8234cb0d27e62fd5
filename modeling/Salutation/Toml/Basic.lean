/-
What a TOML document holds.

A document is a table: keys with their values, in the order in which they first appear.
Values remember where they stand in the text, because a value that does not fit is
reported with its line underlined.  A place is given by what is left of the text from there
on: a reader that returns the rest of its input has that at hand without carrying a position
along.

A table also remembers how it came about.  TOML lets a table be continued only in certain
ways: one that is merely implied by a longer header may still get a header of its own,
one made by a dotted key may be extended by further dotted keys, and an inline table is
complete as it stands.
-/
import Salutation.Decimal.Shortest

namespace Salutation.Toml

/-- A stretch of a text, by what is left of the text where it starts and where it stops. -/
structure Span where
  start : List Char
  stop : List Char
  deriving Repr, DecidableEq

/-- A key of a table and where it was written. -/
structure Key where
  name : String
  span : Span
  deriving Repr, DecidableEq

/-- A dotted key: the tables it passes through, and the key in the last of them. -/
structure KeyPath where
  parents : List Key
  last : Key
  deriving Repr, DecidableEq

namespace KeyPath

/-- The keys of a path from the first to the last. -/
def keys (path : KeyPath) : List Key := path.parents ++ [path.last]

/-- What is left of the text where a path starts. -/
def start (path : KeyPath) : List Char := (path.parents.headD path.last).span.start

end KeyPath

/-- A value without parts. -/
inductive Scalar where
  | text (s : String)
  | integer (n : Int)
  | number (q : Quantity)
  | truth (b : Bool)
  /-- A date, a time, or both, as written. -/
  | moment (written : String)
  deriving Repr, DecidableEq

/-- How a table came about. -/
inductive Origin where
  /-- By a header of its own; the stretch runs from the header to the end of its last value. -/
  | header (span : Span)
  /-- Between braces. -/
  | inline (span : Span)
  /-- By a dotted key. -/
  | dotted
  /-- As a parent in the header of another table. -/
  | implied
  deriving Repr, DecidableEq

/-- A value of a document. -/
inductive Node where
  | scalar (span : Span) (value : Scalar)
  | array (span : Span) (elements : List Node)
  | table (origin : Origin) (entries : List (Key × Node))
  /-- An array of tables, each made by a header of its own. -/
  | tables (elements : List (Span × List (Key × Node)))

/-- A table: its keys with their values, in order. -/
abbrev Table := List (Key × Node)

namespace Node

/-- Where a value stands.  Tables that no text of their own makes stand nowhere. -/
def span? : Node → Option Span
  | .scalar span _ => some span
  | .array span _ => some span
  | .table (.header span) _ => some span
  | .table (.inline span) _ => some span
  | .table _ _ => none
  | .tables elements =>
    match elements.head?, elements.getLast? with
    | some first, some last => some ⟨first.1.start, last.1.stop⟩
    | _, _ => none

/-- The name of a value's kind. -/
def kind : Node → String
  | .scalar _ (.text _) => "string"
  | .scalar _ (.integer _) => "integer"
  | .scalar _ (.number _) => "float"
  | .scalar _ (.truth _) => "boolean"
  | .scalar _ (.moment _) => "datetime"
  | .array _ _ => "array"
  | .table (.inline _) _ => "inline table"
  | .table _ _ => "table"
  | .tables _ => "array of tables"

end Node

namespace Table

/-- The value of a key. -/
def get? (table : Table) (name : String) : Option Node :=
  (table.find? (·.1.name = name)).map (·.2)

/-- A table without a key. -/
def erase (table : Table) (name : String) : Table :=
  table.filter (·.1.name ≠ name)

/-- A table with another value for a key that it has, in the same place. -/
def replace (table : Table) (name : String) (node : Node) : Table :=
  table.map fun (key, old) => if key.name = name then (key, node) else (key, old)

end Table

end Salutation.Toml
