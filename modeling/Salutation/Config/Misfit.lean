/-
Misfits: values of a document that the configuration has no place for.

Each remembers the stretch of the text that is at fault.  A table without text of its own
is represented by the key it belongs to.
-/
import Salutation.Text.Quoted
import Salutation.Toml.Basic

namespace Salutation.Config

/-- What a configuration expects of a value. -/
inductive Wanted where
  | text
  | greeting
  | output
  deriving Repr, DecidableEq

/-- What a configuration expects of a value, in words. -/
def Wanted.phrase : Wanted → String
  | .text => "a string"
  | .greeting => "struct GreetingConfig"
  | .output => "struct OutputConfig"

/-- What is wrong with a value. -/
inductive Complaint where
  /-- A value of the wrong kind, described in words. -/
  | wrongKind (found : String) (wanted : Wanted)
  /-- A name that is none of those allowed. -/
  | unknownName (name : String) (allowed : List String)
  /-- Neither a name nor a table with a name as its key. -/
  | notAName
  /-- A table that should hold one name and holds none. -/
  | noName
  /-- A table that should hold one name and holds several. -/
  | manyNames
  /-- A name with a table or array below it that is not empty. -/
  | notEmptyTable
  /-- A name with an array of tables below it. -/
  | notEmptyArray
  /-- A name with a value below it that is no table; the value's kind. -/
  | notATable (found : String)
  deriving Repr, DecidableEq

/-- A complaint and the stretch of text it is about. -/
structure Misfit where
  span : Toml.Span
  complaint : Complaint
  deriving Repr, DecidableEq

/-- The allowed names, as a complaint lists them. -/
def listed (names : List String) : String :=
  let marked := names.map fun name => "`" ++ name ++ "`"
  match marked with
  | [] => ""
  | [one] => one
  | [one, other] => one ++ " or " ++ other
  | _ => "one of " ++ String.intercalate ", " marked

/-- The wording of a complaint. -/
def Complaint.message : Complaint → String
  | .wrongKind found wanted => "invalid type: " ++ found ++ ", expected " ++ wanted.phrase
  | .unknownName name allowed => "unknown variant `" ++ name ++ "`, expected " ++ listed allowed
  | .notAName => "wanted string or table"
  | .noName => "wanted exactly 1 element, found 0 elements"
  | .manyNames => "wanted exactly 1 element, more than 1 element"
  | .notEmptyTable => "expected empty table"
  | .notEmptyArray => "expected empty array"
  | .notATable found => "expected table, found " ++ found

/-- A value in words. -/
def describe : Toml.Node → String
  | .scalar _ (.text s) => "string " ++ String.ofList (Text.quoted s.toList)
  | .scalar _ (.integer n) => "integer `" ++ toString n ++ "`"
  | .scalar _ (.number q) => "floating point `" ++ String.ofList q.text ++ "`"
  | .scalar _ (.truth b) => "boolean `" ++ (if b then "true" else "false") ++ "`"
  | .scalar _ (.moment _) => "map"
  | .array _ _ => "sequence"
  | .tables _ => "sequence"
  | .table _ _ => "map"

end Salutation.Config
