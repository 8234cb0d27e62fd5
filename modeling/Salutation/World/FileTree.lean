/-
File trees: directories within directories, and files in them.

A path is walked part by part from the root.  A point stays, two points go back up, an
empty part stays but needs a directory, so a separator at the end of a path to a file leads
nowhere.  A name that is too long for any file is found out only where it is looked up.
-/
import Salutation.World.Files

namespace Salutation

/-- A file or a directory with named contents. -/
inductive FileTree where
  | file (bytes : Bytes)
  | directory (children : List (Bytes × FileTree))

namespace FileTree

/-- The child of a given name. -/
def child? (children : List (Bytes × FileTree)) (name : Bytes) : Option FileTree :=
  (children.find? (·.1 = name)).map (·.2)

/-- A tree in which what lies at a path of names is replaced; directories on the way are made. -/
def place (new : FileTree) : List Bytes → FileTree → FileTree
  | [], _ => new
  | name :: more, tree =>
    let children :=
      match tree with
      | .directory children => children
      | .file _ => []
    let old := (child? children name).getD (.directory [])
    .directory (children.filter (·.1 ≠ name) ++ [(name, place new more old)])

/-- A tree with a directory at a path of names, unless something is there already. -/
def makeDirectory : List Bytes → FileTree → FileTree
  | [], tree => tree
  | name :: more, .directory children =>
    let old := (child? children name).getD (.directory [])
    .directory (children.filter (·.1 ≠ name) ++ [(name, makeDirectory more old)])
  | _, tree => tree

/-- The greatest number of bytes in a name. -/
def nameLimit : Nat := 255

/-- The greatest number of bytes in a path. -/
def pathLimit : Nat := 4095

/-- Where a walk of parts leads.  The list holds the present place, and below it the
directories it lies in. -/
def walk : List FileTree → List Bytes → Entry
  | [], _ => .missing
  | .file bytes :: _, [] => .file bytes
  | .directory _ :: _, [] => .directory
  | .file _ :: _, _ :: _ => .obstructed
  | .directory children :: up, part :: more =>
    if part = [] || part = bytesOf "." then walk (.directory children :: up) more
    else if part = bytesOf ".." then
      walk (if up.isEmpty then [.directory children] else up) more
    else if part.length > nameLimit then .tooLong
    else
      match child? children part with
      | some child => walk (child :: .directory children :: up) more
      | none => .missing

/-- The file system of a tree, seen from a working directory. -/
def files (root : FileTree) (workingDirectory : Path) : Files := fun path =>
  if 0 ∈ path.bytes then .broken
  else if path.bytes.length > pathLimit then .tooLong
  else if path.bytes.isEmpty then .missing
  else if path.isAbsolute then walk [root] path.parts
  else walk [root] (workingDirectory.parts ++ path.parts)

end FileTree

end Salutation
