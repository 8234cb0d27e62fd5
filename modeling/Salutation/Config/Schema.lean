/-
The keys that a configuration file may have.

The root has two tables, and each of them two fields.  Everything else is unknown, and an
unknown key gets a suggestion: a known key of its table at most two edits away, counted in
bytes, or else the place where a key of that very name belongs.
-/
import Salutation.EditDistance
import Salutation.Text.Utf8

namespace Salutation.Config

/-- A table of a file and its known keys; the root has no name. -/
structure KnownTable where
  name : Option String
  keys : List String
  deriving Repr, DecidableEq

/-- The known keys of each table. -/
def knownTables : List KnownTable := [
  ⟨none, ["greeting", "output"]⟩,
  ⟨some "greeting", ["name", "message"]⟩,
  ⟨some "output", ["format", "verbosity"]⟩]

/-- The number of byte edits between two keys; there are none between a key and itself. -/
def keyDistance (a b : String) : Nat :=
  if a = b then 0 else EditDistance.distance (bytesOf a) (bytesOf b)

/-- The key closest to a given one, with its distance; of equally close ones the first. -/
def closest? (key : String) : List String → Option (String × Nat)
  | [] => none
  | candidate :: more =>
    let distance := keyDistance key candidate
    match closest? key more with
    | some (other, best) => if best < distance then some (other, best) else some (candidate, distance)
    | none => some (candidate, distance)

/-- The known keys of a table; an unknown table has none. -/
def keysOf (tables : List KnownTable) (table : Option String) : List String :=
  match tables.find? (·.name = table) with
  | some known => known.keys
  | none => []

/-- The other place where a key is known: the table and the key, joined by a point. -/
def elsewhere? (tables : List KnownTable) (table : Option String) (key : String) : Option String :=
  tables.findSome? fun known =>
    match known.name with
    | some other =>
      if some other ≠ table && key ∈ known.keys then some (other ++ "." ++ key) else none
    | none => none

/-- The suggestion for a key of a table, given the known tables. -/
def suggestionAmong (tables : List KnownTable) (table : Option String) (key : String) :
    Option String :=
  match closest? key (keysOf tables table) with
  | some (candidate, distance) =>
    if distance ≤ 2 && candidate ≠ key then some candidate else elsewhere? tables table key
  | none => elsewhere? tables table key

/-- The suggestion for an unknown key of a table. -/
def suggestion? (table : Option String) (key : String) : Option String :=
  suggestionAmong knownTables table key

end Salutation.Config
