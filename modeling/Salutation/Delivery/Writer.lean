/-
A writer of bytes that may run out of room.

It takes bytes until it holds as many as it can, part of a write included, and from then on
every write that is not empty fails.  What was taken stays.
-/
import Salutation.Text.Utf8
import Salutation.World.IoError

namespace Salutation

/-- A writer: what it holds, how much it can hold in all, and how it fails. -/
structure Writer where
  written : Bytes := []
  /-- The number of bytes it can hold, if there is a limit. -/
  limit : Option Nat := none
  /-- The error of a write for which there is no room. -/
  fullError : IoError := .closed
  /-- The error of every flush, if flushing fails. -/
  flushError : Option IoError := none
  deriving Repr, DecidableEq

namespace Writer

/-- The bytes of a write that a writer takes. -/
def taken (writer : Writer) (bytes : Bytes) : Bytes :=
  match writer.limit with
  | none => bytes
  | some limit => bytes.take (limit - writer.written.length)

/-- Writes bytes, as many as there is room for. -/
def write (writer : Writer) (bytes : Bytes) : Writer × Except IoError Unit :=
  let taken := writer.taken bytes
  ({ writer with written := writer.written ++ taken },
    if taken.length = bytes.length then .ok () else .error writer.fullError)

/-- Writes pieces in order, until one fails. -/
def writeAll : Writer → List Bytes → Writer × Except IoError Unit
  | writer, [] => (writer, .ok ())
  | writer, piece :: more =>
    match writer.write piece with
    | (writer, .ok ()) => writeAll writer more
    | (writer, .error error) => (writer, .error error)

/-- Flushes a writer. -/
def flush (writer : Writer) : Writer × Except IoError Unit :=
  match writer.flushError with
  | none => (writer, .ok ())
  | some error => (writer, .error error)

end Writer

end Salutation
