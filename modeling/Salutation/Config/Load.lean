/-
Loading a configuration file.

The text is read as a document and the document decoded; each unknown key becomes a warning
with the line it stands on and a suggestion.  A warning names its key by the last part of
the key's path, the parts joined by points: what precedes the last point is the table.
-/
import Salutation.Config.Decode
import Salutation.Config.KeyLine
import Salutation.Config.Schema
import Salutation.Failure
import Salutation.Toml.Document
import Salutation.World.Files

namespace Salutation.Config

/-- An unknown key of a file. -/
structure Warning where
  key : String
  file : Path
  line : Option Nat
  suggestion : Option String
  deriving Repr, DecidableEq

/-- What precedes the last point of a text and what follows it; without a point all of it
follows. -/
def splitAtLastPoint (text : List Char) : Option (List Char) × List Char :=
  let after := (text.reverse.takeWhile (· ≠ '.')).reverse
  if '.' ∈ text then (some (text.take (text.length - after.length - 1)), after)
  else (none, text)

/-- The table and the key that the path of an unknown key names. -/
def locate (path : List String) : Option String × String :=
  let (table, key) := splitAtLastPoint (String.intercalate "." path).toList
  (table.map String.ofList, String.ofList key)

/-- The warning for an unknown key of a file with the given lines. -/
def warn (file : Path) (lines : List (List Char)) (path : List String) : Warning :=
  let (table, key) := locate path
  ⟨key, file, keyLineAmong? lines table key, suggestion? table key⟩

/-- The configuration that a text describes, and the paths of its unknown keys. -/
def ofText (content : List Char) : Except Fault (Config × List (List String)) :=
  match Toml.document content with
  | .error refusal => .error (.refused refusal)
  | .ok table =>
    match ofTable table with
    | .error misfit => .error (.misfit misfit)
    | .ok result => .ok result

/-- The configuration in a text that was read from a file, with its warnings. -/
def parse (file : Path) (content : List Char) : Except Failure (Config × List Warning) :=
  match ofText content with
  | .error fault => .error (.invalidConfig file content fault)
  | .ok (config, unknown) => .ok (config, unknown.map (warn file (Text.lines content)))

/-- The configuration in a file, with its warnings. -/
def load (files : Files) (file : Path) : Except Failure (Config × List Warning) :=
  match files.readText file with
  | .error error => .error (.io error)
  | .ok content => parse file content

end Salutation.Config
