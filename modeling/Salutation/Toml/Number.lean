/-
Numbers.

Digits may be set apart by single underscores.  An integer is decimal with an optional
sign and no leading zero, or hexadecimal, octal or binary without a sign, and has to fit
64 bits.  A fraction or an exponent makes it a number with a fraction; one too large to
hold is refused when positive and is infinite when negative.

An underscore, a point, an exponent's letter and the letter of a base all announce a digit.
If none follows the number is refused, rather than ended before the announcement.
-/
import Salutation.Toml.Filler

namespace Salutation.Toml

/-- The value of a digit, below 16. -/
def digitValue (c : Char) : Nat :=
  if c ≤ '9' then c.toNat - 0x30
  else if c ≤ 'F' then c.toNat - 0x41 + 10
  else c.toNat - 0x61 + 10

/-- The number that digits spell in a base. -/
def ofDigits (base : Nat) (digits : List Char) : Nat :=
  digits.foldl (fun n c => n * base + digitValue c) 0

/-- Reads as many digits as there are, each perhaps after one underscore. -/
def moreDigits (isDigit : Char → Bool) : List Char → Except Refusal (List Char × List Char)
  | '_' :: c :: rest =>
    if isDigit c then push c (moreDigits isDigit rest) else refuse (c :: rest) .digit
  | ['_'] => refuse [] .digit
  | c :: rest => if isDigit c then push c (moreDigits isDigit rest) else .ok ([], c :: rest)
  | [] => .ok ([], [])

/-- Reads digits where there has to be one. -/
def digits (isDigit : Char → Bool) (text : List Char) : Except Refusal (List Char × List Char) :=
  match text with
  | c :: _ => if isDigit c then moreDigits isDigit text else refuse text .digit
  | [] => refuse text .digit

/-- Reads digits without a leading zero, or a single zero. -/
def wholePart? (text : List Char) : Except Refusal (Option (List Char × List Char)) :=
  match text with
  | '0' :: rest => .ok (some (['0'], rest))
  | c :: _ => if c.isDigit then (moreDigits Char.isDigit text).map some else .ok none
  | [] => .ok none

/-- A sign and what follows; no sign is a plus. -/
def sign (text : List Char) : Bool × List Char :=
  match text with
  | '-' :: rest => (true, rest)
  | '+' :: rest => (false, rest)
  | _ => (false, text)

/-- The integers of 64 bits. -/
def fits (n : Int) : Bool := -(Nat.pow 2 63 : Int) ≤ n && n < (Nat.pow 2 63 : Int)

/-- The digits that a letter after a leading zero announces, and their base. -/
def radix? (c : Char) : Option (Nat × (Char → Bool)) :=
  match c with
  | 'x' => some (16, fun d => d.isDigit || ('a' ≤ d && d ≤ 'f') || ('A' ≤ d && d ≤ 'F'))
  | 'o' => some (8, fun d => '0' ≤ d && d ≤ '7')
  | 'b' => some (2, fun d => d = '0' || d = '1')
  | _ => none

/-- A negative or positive integer. -/
def signed (negative : Bool) (n : Nat) : Int := if negative then -(n : Int) else n

/-- Reads an exponent. -/
def exponent? (text : List Char) : Except Refusal (Option (Int × List Char)) :=
  match text with
  | c :: rest =>
    if c = 'e' || c = 'E' then do
      let (negative, rest) := sign rest
      let (power, after) ← digits Char.isDigit rest
      return some (signed negative (ofDigits 10 power), after)
    else .ok none
  | [] => .ok none

/-- Reads the places behind a point, an exponent, or both. -/
def fraction? (text : List Char) : Except Refusal (Option ((List Char × Int) × List Char)) :=
  match text with
  | '.' :: rest => do
    let (places, rest) ← digits Char.isDigit rest
    match ← exponent? rest with
    | some (power, after) => return some ((places, power), after)
    | none => return some ((places, 0), rest)
  | _ => do
    match ← exponent? text with
    | some (power, after) => return some (([], power), after)
    | none => return none

/-- Infinity and the absence of a number, by name. -/
def namedNumber? (negative : Bool) (text : List Char) : Option (Quantity × List Char) :=
  match text with
  | 'i' :: 'n' :: 'f' :: rest => some (.infinite negative, rest)
  | 'n' :: 'a' :: 'n' :: rest => some (.notANumber, rest)
  | _ => none

/-- A number with a fraction, unless it is positive and too large to hold. -/
def quantity? (d : Decimal) : Option Quantity :=
  if d.negative || d.nearest.isSome then some (.finite d) else none

/-- Reads a number that has a fraction, an exponent or a name. -/
def quantityAt? (text : List Char) : Except Refusal (Option (Quantity × List Char)) := do
  let (negative, body) := sign text
  match ← wholePart? body with
  | none => return namedNumber? negative body
  | some (whole, rest) =>
    match ← fraction? rest with
    | none => return none
    | some ((places, power), after) =>
      match quantity? ⟨negative, ofDigits 10 (whole ++ places), power - places.length⟩ with
      | some quantity => return some (quantity, after)
      | none => refuse text .range

/-- Reads an integer: the digits after a base if one is announced, else decimal ones. -/
def integer (text : List Char) : Except Refusal (Int × List Char) := do
  let based? : Option (Nat × (Char → Bool) × List Char) :=
    match text with
    | '0' :: c :: rest => (radix? c).map fun (base, isDigit) => (base, isDigit, rest)
    | _ => none
  let (n, after) ←
    match based? with
    | some (base, isDigit, rest) =>
      (digits isDigit rest).map fun (ds, after) => ((ofDigits base ds : Int), after)
    | none => do
      let (negative, body) := sign text
      match ← wholePart? body with
      | some (whole, after) => pure (signed negative (ofDigits 10 whole), after)
      | none => refuse text .value
  if fits n then return (n, after) else refuse text .range

/-- Reads a number. -/
def number (text : List Char) : Except Refusal (Scalar × List Char) := do
  match ← quantityAt? text with
  | some (quantity, after) => return (.number quantity, after)
  | none =>
    let (n, after) ← integer text
    return (.integer n, after)

end Salutation.Toml
