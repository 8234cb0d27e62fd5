/-
Files: what a path leads to.

A file system is any assignment of entries to paths; nothing here depends on how paths are
resolved.  A regular file is known by its bytes, or by how reading it fails: that it is there
says nothing about whether it can be read.
-/
import Salutation.World.IoError
import Salutation.World.Path

namespace Salutation

/-- What a path leads to. -/
inductive Entry where
  | missing
  /-- The path passes through a regular file. -/
  | obstructed
  /-- The path, or a name in it, is too long. -/
  | tooLong
  /-- The path holds a zero byte. -/
  | broken
  | directory
  | file (bytes : Bytes)
  /-- A regular file that cannot be read. -/
  | unreadable (error : IoError)
  deriving Repr, DecidableEq

/-- A file system. -/
abbrev Files := Path → Entry

namespace Files

/-- Whether a path leads to a regular file. -/
def isFile (files : Files) (path : Path) : Bool :=
  match files path with
  | .file _ => true
  | .unreadable _ => true
  | _ => false

/-- The bytes of a file. -/
def read (files : Files) (path : Path) : Except IoError Bytes :=
  match files path with
  | .file bytes => .ok bytes
  | .unreadable error => .error error
  | .directory => .error .isADirectory
  | .obstructed => .error .notADirectory
  | .tooLong => .error .nameTooLong
  | .broken => .error .zeroByte
  | .missing => .error .notFound

/-- The text of a file. -/
def readText (files : Files) (path : Path) : Except IoError (List Char) :=
  match files.read path with
  | .error error => .error error
  | .ok bytes =>
    match Utf8.decode? bytes with
    | some text => .ok text
    | none => .error .notText

end Files

end Salutation
