/-
The shortest text of a held number.

Every real number in an interval around a held number reads back as that number: up to
half the distance to either neighbour, and the ends themselves when the significand is
even.  The shortest text is found on the coarsest grid of powers of ten that meets the
interval.  If any point of a grid lies in the interval, so does one of the two grid points
next to the held number, so those two are all that is tried; of two hits the nearer wins,
and the larger one if the number lies in the middle between them.

The text is always positional and always shows a point: `1.0`, never `1` or `1e0`.
-/
import Salutation.Decimal.Binary64

namespace Salutation

namespace Binary64

/-- Whether `num / den` lies in the interval that reads back as the number with the given
significand, everything measured in quarters of its last binary digit. -/
def readsBack (significand : Nat) (atBottom : Bool) (num den : Nat) : Bool :=
  -- Just above a power of two the neighbour below is only half as far away.
  let below := if significand = Nat.pow 2 52 && !atBottom then 1 else 2
  let low := (4 * significand - below) * den
  let high := (4 * significand + 2) * den
  if significand % 2 = 0 then low ≤ num && num ≤ high else low < num && num < high

/-- The significand in quarters of a unit, as a quotient: `4 * significand * 2 ^ (exponent - 2)`
divided by ten to the `power`. -/
def scaled (exponent power : Int) : Nat × Nat :=
  let twos := exponent - 2
  let num := Nat.pow 2 twos.toNat * Nat.pow 10 (-power).toNat
  let den := Nat.pow 2 (-twos).toNat * Nat.pow 10 power.toNat
  (num, den)

/-- The grid point of ten to the `power` that reads back, if there is one: its multiple. -/
def onGrid? (x : Binary64) (power : Int) : Option Nat :=
  let (num, den) := scaled x.exponent power
  let quarters := 4 * x.significand
  let floor := quarters * num / den
  let hits (multiple : Nat) : Bool :=
    0 < multiple && readsBack x.significand (x.exponent == leastExponent) (multiple * den) num
  let isBelowMiddle := 2 * quarters * num < (2 * floor + 1) * den
  match hits floor, hits (floor + 1) with
  | true, true => some (if isBelowMiddle then floor else floor + 1)
  | true, false => some floor
  | false, true => some (floor + 1)
  | false, false => none

/-- The coarsest grid that meets the interval, from a given power of ten downwards. -/
def shortestFrom (x : Binary64) : Nat → Int → Nat × Int
  | 0, power => (0, power)
  | fuel + 1, power =>
    match x.onGrid? power with
    | some multiple => (multiple, power)
    | none => shortestFrom x fuel (power - 1)

/-- The digits and the power of ten of the shortest text.  The search starts above the
leading digit and ends below the last place that any held number reaches. -/
def shortest (x : Binary64) : Nat × Int :=
  if x.significand = 0 then (0, 0)
  else
    let integer := x.significand * Nat.pow 2 x.exponent.toNat / Nat.pow 2 (-x.exponent).toNat
    let top := (Nat.toDigits 10 integer).length
    shortestFrom x (top + 1100) top

end Binary64

/-- Digits with a decimal point among or around them, and a zero on either bare side of it. -/
def positional (digits : Nat) (exponent : Int) : List Char :=
  let written := Nat.toDigits 10 digits
  if exponent ≥ 0 then written ++ List.replicate exponent.toNat '0' ++ ['.', '0']
  else
    let places := (-exponent).toNat
    let padded := List.replicate (places + 1 - written.length) '0' ++ written
    padded.take (padded.length - places) ++ '.' :: padded.drop (padded.length - places)

/-- A number that may also be infinite or not a number at all. -/
inductive Quantity where
  | finite (d : Decimal)
  | infinite (negative : Bool)
  | notANumber
  deriving Repr, DecidableEq

namespace Quantity

/-- The text of infinity. -/
def infinityText (negative : Bool) : List Char :=
  (if negative then "-inf" else "inf").toList

/-- The shortest text that reads back as the same held number. -/
def text : Quantity → List Char
  | .finite d =>
    match d.nearest with
    | none => infinityText d.negative
    | some x =>
      let (digits, power) := x.shortest
      (if x.negative then ['-'] else []) ++ positional digits power
  | .infinite negative => infinityText negative
  | .notANumber => "NaN".toList

end Quantity

end Salutation
