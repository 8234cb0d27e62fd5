/-
A hexadecimal digit is read back as the number it was written for, in either case.
-/
import Salutation.Text.Hex

namespace Salutation.Text

theorem hexValue?_lowerHex {n : Nat} (h : n < 16) : hexValue? (lowerHex n) = some n := by
  have hall : ∀ m < 16, hexValue? (lowerHex m) = some m := by decide
  exact hall n h

theorem hexValue?_upperHex {n : Nat} (h : n < 16) : hexValue? (upperHex n) = some n := by
  have hall : ∀ m < 16, hexValue? (upperHex m) = some m := by decide
  exact hall n h

end Salutation.Text
