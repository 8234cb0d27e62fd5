/-
What a directive asks of a field: its name, or its name and a value.

A value is a number or a pattern for the field's text.  Numbers are told apart first, because
those with a plus sign are no patterns.  Truth values are patterns as well.
-/
import Salutation.Pattern.Reader

namespace Salutation.Log

/-- A text without a sign in front. -/
def withoutSign (text : List Char) : List Char :=
  match text with
  | '+' :: rest => rest
  | '-' :: rest => rest
  | _ => text

/-- Whether a text is empty or an exponent. -/
def isExponent (text : List Char) : Bool :=
  match text with
  | [] => true
  | c :: rest =>
    let digits := withoutSign rest
    (c = 'e' || c = 'E') && digits ≠ [] && digits.all Char.isDigit

/-- Whether a text is a decimal number: digits, perhaps with a point before, between or
behind them, and perhaps an exponent. -/
def isDecimal (text : List Char) : Bool :=
  let whole := text.takeWhile Char.isDigit
  match text.dropWhile Char.isDigit with
  | '.' :: rest =>
    let fraction := rest.takeWhile Char.isDigit
    (whole ≠ [] || fraction ≠ []) && isExponent (rest.dropWhile Char.isDigit)
  | rest => whole ≠ [] && isExponent rest

/-- Whether a text is a number, also one that is not finite or not a number. -/
def isNumber (text : List Char) : Bool :=
  let magnitude := withoutSign text
  isDecimal magnitude ||
    (String.ofList magnitude).toLower ∈ ["inf", "infinity", "nan"]

/-- A field that a directive asks for, by name or by name and value. -/
structure FieldPattern where
  name : String
  hasValue : Bool
  deriving Repr, DecidableEq

/-- The value in the text of a field: what stands between its first two equals signs. -/
def fieldValue? (text : List Char) : Option (List Char) :=
  match text.dropWhile (· ≠ '=') with
  | _ :: rest => some (rest.takeWhile (· ≠ '='))
  | [] => none

/-- What is wrong with the value in the text of a field, if there is one. -/
def fieldProblem? (text : List Char) : Option Pattern.Problem :=
  (fieldValue? text).bind fun value =>
    if isNumber value then none else Pattern.problem? value

/-- The field that a text asks for.  Its name ends at the first equals sign. -/
def FieldPattern.ofText (text : List Char) : Except Pattern.Problem FieldPattern :=
  match fieldProblem? text with
  | some problem => .error problem
  | none => .ok ⟨String.ofList (text.takeWhile (· ≠ '=')), (fieldValue? text).isSome⟩

end Salutation.Log
