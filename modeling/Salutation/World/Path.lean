/-
Paths, which are bytes and need not be text.
-/
import Salutation.Text.Utf8

namespace Salutation

/-- A path in the file system. -/
structure Path where
  bytes : Bytes
  deriving Repr, DecidableEq

namespace Path

/-- The byte between the parts of a path. -/
def separator : UInt8 := 0x2F

/-- The path that a text spells. -/
def ofString (s : String) : Path := ⟨bytesOf s⟩

/-- A path as it is shown: what is not text shows as U+FFFD. -/
def display (path : Path) : String := String.ofList (Utf8.decodeLossy path.bytes)

/-- Whether a path starts at the root. -/
def isAbsolute (path : Path) : Bool := path.bytes.head? = some separator

/-- A path with one more part; a separator is added unless the path is empty or ends in one. -/
def join (path : Path) (part : String) : Path :=
  match path.bytes.getLast? with
  | none => ofString part
  | some last =>
    if last = separator then ⟨path.bytes ++ bytesOf part⟩
    else ⟨path.bytes ++ separator :: bytesOf part⟩

/-- The parts of a path between its separators, empty ones included. -/
def partsOf : Bytes → List Bytes
  | [] => [[]]
  | b :: rest =>
    if b = separator then [] :: partsOf rest
    else
      match partsOf rest with
      | [] => [[b]]
      | part :: more => (b :: part) :: more

/-- The parts of a path between its separators, empty ones included. -/
def parts (path : Path) : List Bytes := partsOf path.bytes

/-- The names that are left of parts that are walked from the root: a point stays, two points
take the name before them away.  The latest name comes first. -/
def namesAfter (names : List Bytes) : List Bytes → List Bytes
  | [] => names
  | part :: more =>
    if part = [] || part = bytesOf "." then namesAfter names more
    else if part = bytesOf ".." then namesAfter names.tail more
    else namesAfter (part :: names) more

/-- The absolute path of what a path leads to from a directory, without detours.  It is right
where directories have one name only. -/
def within (directory path : Path) : Path :=
  let parts := if path.isAbsolute then path.parts else directory.parts ++ path.parts
  let names := (namesAfter [] parts).reverse
  if names.isEmpty then ⟨[separator]⟩ else ⟨names.flatMap (separator :: ·)⟩

end Path

end Salutation
