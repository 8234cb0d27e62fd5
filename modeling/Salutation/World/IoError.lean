/-
What can go wrong between the program and the outside world.
-/

namespace Salutation

/-- A failed read or write. -/
inductive IoError where
  | notFound
  | notADirectory
  | isADirectory
  /-- The system does not allow it. -/
  | notPermitted
  /-- A path, or a name in it, is longer than the system allows. -/
  | nameTooLong
  /-- A path holds a zero byte, which would end it. -/
  | zeroByte
  /-- What was read is not UTF-8. -/
  | notText
  /-- The reader of the output went away. -/
  | closed
  | flushFailed
  | noSpace
  deriving Repr, DecidableEq

/-- The wording of a failed read or write. -/
def IoError.message : IoError → String
  | .notFound => "No such file or directory (os error 2)"
  | .notADirectory => "Not a directory (os error 20)"
  | .isADirectory => "Is a directory (os error 21)"
  | .notPermitted => "Permission denied (os error 13)"
  | .nameTooLong => "File name too long (os error 36)"
  | .zeroByte => "file name contained an unexpected NUL byte"
  | .notText => "stream did not contain valid UTF-8"
  | .closed => "closed"
  | .flushFailed => "flush failed"
  | .noSpace => "No space left on device (os error 28)"

end Salutation
