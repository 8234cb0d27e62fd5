/-
Numbers with a fraction, as they are written and as they are held.

A number is written with decimal digits and a power of ten, and held with 53 binary
digits and a power of two.  `Decimal.nearest` takes the held number closest to the
written one, in exact integer arithmetic: the power of two is chosen so that the
quotient has 53 binary digits (fewer only at the bottom of the range), and the quotient
is rounded once, a half going to the even neighbour.
-/

namespace Salutation

/-- A written number: `digits` times ten to the `exponent`, with its sign. -/
structure Decimal where
  negative : Bool
  digits : Nat
  exponent : Int
  deriving Repr, DecidableEq

/-- A held number: `significand` times two to the `exponent`, with its sign.  In normal form
the significand has 53 binary digits, or the exponent is the least one, -1074. -/
structure Binary64 where
  negative : Bool
  significand : Nat
  exponent : Int
  deriving Repr, DecidableEq

namespace Binary64

/-- The least power of two. -/
def leastExponent : Int := -1074

/-- The greatest power of two that 53 digits may carry. -/
def greatestExponent : Int := 971

/-- Zero, with a sign. -/
def zero (negative : Bool) : Binary64 := ⟨negative, 0, leastExponent⟩

end Binary64

/-- A quotient rounded to the nearest integer, a half to the even neighbour. -/
def roundDiv (num den : Nat) : Nat :=
  let q := num / den
  let r := num % den
  if 2 * r > den || (2 * r == den && q % 2 == 1) then q + 1 else q

namespace Decimal

/-- The held number nearest to the quotient of two positive integers, or `none` if it is
beyond the range. -/
def nearestQuotient (negative : Bool) (num den : Nat) : Option Binary64 :=
  -- The quotient lies strictly between two to the `gap - 1` and two to the `gap + 1`.
  let gap : Int := (num.log2 : Int) - (den.log2 : Int)
  let below := if gap ≥ 0 then num < den <<< gap.toNat else num <<< (-gap).toNat < den
  let exponent := max Binary64.leastExponent (if below then gap - 53 else gap - 52)
  let significand :=
    if exponent ≥ 0 then roundDiv num (den <<< exponent.toNat)
    else roundDiv (num <<< (-exponent).toNat) den
  -- Rounding up may reach the 54th digit, and then only as a power of two.
  let (significand, exponent) :=
    if significand = Nat.pow 2 53 then (Nat.pow 2 52, exponent + 1) else (significand, exponent)
  if exponent > Binary64.greatestExponent then none
  else some ⟨negative, significand, exponent⟩

/-- The held number nearest to a written one, or `none` if it is beyond the range.  Powers
of ten far outside the range are settled before they are computed. -/
def nearest (d : Decimal) : Option Binary64 :=
  let magnitude : Int := (Nat.toDigits 10 d.digits).length + d.exponent
  if d.digits = 0 || magnitude < -400 then some (Binary64.zero d.negative)
  else if magnitude > 400 then none
  else if d.exponent ≥ 0 then nearestQuotient d.negative (d.digits * Nat.pow 10 d.exponent.toNat) 1
  else nearestQuotient d.negative d.digits (Nat.pow 10 (-d.exponent).toNat)

end Decimal

end Salutation
