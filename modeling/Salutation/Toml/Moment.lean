/-
Dates and times.

A date, a time, or a date with a time and perhaps an offset from universal time.  Dates are
those of the calendar, leap days included; a minute may have a sixty-first second.

Four digits and a hyphen announce a date, two digits and a colon a time.  What follows them
has to be one.
-/
import Salutation.Toml.Number

namespace Salutation.Toml

/-- Reads exactly so many digits as a number. -/
def fixedDigits? (count : Nat) (text : List Char) : Option (Nat × List Char) :=
  let digits := text.take count
  if digits.length = count && digits.all Char.isDigit then
    some (ofDigits 10 digits, text.drop count)
  else none

/-- The number of days of a month. -/
def daysIn (year month : Nat) : Nat :=
  if month = 2 then
    if year % 4 = 0 && (year % 100 ≠ 0 || year % 400 = 0) then 29 else 28
  else if month = 4 || month = 6 || month = 9 || month = 11 then 30
  else 31

/-- What follows two digits below a bound, if they are next. -/
def below? (bound : Nat) (text : List Char) : Option (List Char) := do
  let (n, rest) ← fixedDigits? 2 text
  if n < bound then some rest else none

/-- What follows two digits, which have to be below a bound. -/
def below (bound : Nat) (text : List Char) : Except Refusal (List Char) :=
  match below? bound text with
  | some rest => .ok rest
  | none => refuse text .moment

/-- What follows a character that has to be next. -/
def behind (c : Char) (text : List Char) : Except Refusal (List Char) :=
  match text with
  | d :: rest => if d = c then .ok rest else refuse text .moment
  | [] => refuse text .moment

/-- What follows a month and a day of a year, which have to be next. -/
def monthAndDay (year : Nat) (text : List Char) : Except Refusal (List Char) :=
  match fixedDigits? 2 text with
  | none => refuse text .moment
  | some (month, rest) => do
    let dayAt ← behind '-' rest
    match fixedDigits? 2 dayAt with
    | none => refuse dayAt .moment
    | some (day, after) =>
      if 1 ≤ month && month ≤ 12 && 1 ≤ day && day ≤ daysIn year month then return after
      else refuse dayAt .moment

/-- What follows a date, which starts with a year and a hyphen. -/
def afterDate? (text : List Char) : Except Refusal (Option (List Char)) :=
  match fixedDigits? 4 text with
  | some (year, '-' :: rest) => (monthAndDay year rest).map some
  | _ => .ok none

/-- What follows the fraction of a second, which may be absent. -/
def afterFraction (text : List Char) : List Char :=
  match text with
  | '.' :: c :: rest => if c.isDigit then rest.dropWhile Char.isDigit else text
  | _ => text

/-- What follows a time, which starts with an hour and a colon. -/
def afterTime? (text : List Char) : Except Refusal (Option (List Char)) :=
  match below? 24 text with
  | some (':' :: rest) => do
    let rest ← behind ':' (← below 60 rest)
    let rest ← below 61 rest
    return some (afterFraction rest)
  | _ => .ok none

/-- What follows an offset from universal time, which may be absent. -/
def afterOffset (text : List Char) : Except Refusal (List Char) :=
  match text with
  | c :: rest =>
    if c = 'Z' || c = 'z' then .ok rest
    else if c = '+' || c = '-' then do
      let rest ← behind ':' (← below 24 rest)
      below 60 rest
    else .ok text
  | [] => .ok []

/-- What follows the time of day that belongs to a date, which may be absent. -/
def afterTimeOfDay (text : List Char) : Except Refusal (List Char) :=
  match text with
  | c :: rest =>
    if c = 'T' || c = 't' || c = ' ' then do
      match ← afterTime? rest with
      | some after => afterOffset after
      | none => return text
    else .ok text
  | [] => .ok []

/-- Reads a date, a time, or both. -/
def moment? (text : List Char) : Except Refusal (Option (Scalar × List Char)) := do
  let stop? : Option (List Char) ←
    match ← afterDate? text with
    | some rest => (afterTimeOfDay rest).map some
    | none => afterTime? text
  return stop?.map fun after =>
    (.moment (String.ofList (text.take (text.length - after.length))), after)

end Salutation.Toml
