/-
How a run can fail once its command line is accepted.
-/
import Salutation.Config.Misfit
import Salutation.Toml.Report
import Salutation.World.IoError
import Salutation.World.Path

namespace Salutation

namespace Config

/-- What is wrong with the text of a configuration file. -/
inductive Fault where
  /-- It is no document. -/
  | refused (refusal : Toml.Refusal)
  /-- It is a document that does not fit. -/
  | misfit (found : Misfit)
  deriving Repr, DecidableEq

/-- The report of a fault in a text. -/
def Fault.report (text : List Char) : Fault → String
  | .refused refusal => refusal.report text
  | .misfit m => Toml.report text m.span m.complaint.message

end Config

/-- What a variable's value should have been. -/
inductive Expectation where
  | oneOf (names : List String)
  | validText
  deriving Repr, DecidableEq

/-- What a variable's value should have been, in words. -/
def Expectation.phrase : Expectation → String
  | .oneOf names => "one of: " ++ String.intercalate ", " names
  | .validText => "valid UTF-8"

/-- A failure and what it is about. -/
inductive Failure where
  | io (error : IoError)
  | configNotFound (path : Path)
  | invalidConfig (path : Path) (text : List Char) (fault : Config.Fault)
  | invalidVariable (name value : String) (expected : Expectation)
  deriving Repr, DecidableEq

/-- The wording of a failure. -/
def Failure.message : Failure → String
  | .io error => "IO error: " ++ error.message
  | .configNotFound path => "config file not found: " ++ path.display
  | .invalidConfig path text fault =>
    "invalid config in " ++ path.display ++ ": " ++ fault.report text
  | .invalidVariable name value expected =>
    "invalid value '" ++ value ++ "' for " ++ name ++ " (expected " ++ expected.phrase ++ ")"

end Salutation
