/-
The distance between two keys.

Keys are compared byte by byte, and a key with itself is not compared at all.  That shortcut is
what the table would come to anyway, so the distance of keys is the least number of edits of
single bytes, and what holds of that number holds of the distance: it can be computed from the
first bytes on, it is the same in both directions, and only between a key and itself there is none.

Whoever writes a key counts characters.  The bytes of a character are a word that no other begins
with, and its first byte is a trailing byte of none, so that keys are never closer in bytes than
they are in characters.  What is suggested because it is two byte edits away is two character
edits away at most.
-/
import Salutation.Proofs.Config.Suggestion
import Salutation.Proofs.EditDistance.Code
import Salutation.Proofs.Text.Utf8

namespace Salutation.Utf8

/-- Characters are written in words of bytes. -/
def code : EditDistance.Code Char UInt8 where
  word := String.utf8EncodeChar
  ne_nil := fun _ => String.utf8EncodeChar_ne_nil
  eq_of_prefix := eq_of_utf8EncodeChar_prefix
  apart := by
    intro c d first trailing b rest hc hd hmem
    obtain ⟨hfirst, -⟩ := isUTF8FirstByte_of_utf8EncodeChar hc
    obtain ⟨-, htrailing⟩ := isUTF8FirstByte_of_utf8EncodeChar hd
    exact htrailing first hmem hfirst

end Salutation.Utf8

namespace Salutation.Config

open EditDistance

/-! ### Edits of bytes -/

/-- From nothing every byte of a key is inserted. -/
theorem keyDistance_empty (key : String) : keyDistance "" key = (bytesOf key).length := by
  have hempty : bytesOf "" = [] := rfl
  rw [keyDistance_eq, hempty, distance_recursive, recursive_nil_left]

theorem keyDistance_comm (a b : String) : keyDistance a b = keyDistance b a := by
  rw [keyDistance_eq, keyDistance_eq, distance_comm]

theorem keyDistance_eq_zero_iff {a b : String} : keyDistance a b = 0 ↔ a = b := by
  rw [keyDistance_eq, distance_eq_zero_iff, Utf8.bytesOf_injective.eq_iff]

/-- **The distance between two keys is the least number of insertions, deletions and
replacements of single bytes that turn one into the other.**  It is what the recursion over the
first bytes gives, and what the table gives, also for equal keys and for empty ones.  It is zero
between a key and itself and nowhere else, the same in both directions, and at most the number of
bytes of the longer key. -/
theorem keyDistance_characterised (a b : String) :
    IsLeast {n | EditsIn n (bytesOf a) (bytesOf b)} (keyDistance a b) ∧
    keyDistance a b = recursive (bytesOf a) (bytesOf b) ∧
    keyDistance a b = distance (bytesOf a) (bytesOf b) ∧
    keyDistance "" b = (bytesOf b).length ∧ keyDistance a "" = (bytesOf a).length ∧
    (keyDistance a b = 0 ↔ a = b) ∧
    keyDistance a b = keyDistance b a ∧
    keyDistance a b ≤ max (bytesOf a).length (bytesOf b).length := by
  refine ⟨isDistance_keyDistance a b, ?_, keyDistance_eq a b, keyDistance_empty b, ?_,
    keyDistance_eq_zero_iff, keyDistance_comm a b, ?_⟩
  · rw [keyDistance_eq, distance_recursive]
  · rw [keyDistance_comm, keyDistance_empty]
  · rw [keyDistance_eq]
    exact distance_le_max (bytesOf a) (bytesOf b)

-- Bytes are counted, so an umlaut is two of them.
example : keyDistance "naem" "name" = 2 ∧ keyDistance "näme" "name" = 2 := by decide +kernel

/-! ### Edits of characters -/

theorem distance_le_keyDistance (a b : String) :
    distance a.toList b.toList ≤ keyDistance a b := by
  rw [keyDistance_eq]
  exact Utf8.code.distance_le_distance_encode a.toList b.toList

theorem keyDistance_ascii {a b : String} (ha : ∀ c ∈ a.toList, c.toNat < 0x80)
    (hb : ∀ c ∈ b.toList, c.toNat < 0x80) : keyDistance a b = distance a.toList b.toList := by
  have hsingle : ∀ {text : List Char}, (∀ c ∈ text, c.toNat < 0x80) →
      ∀ c ∈ text, ∃ b, Utf8.code.word c = [b] :=
    fun hascii c hc => Utf8.utf8EncodeChar_ascii (hascii c hc)
  rw [keyDistance_eq]
  exact Utf8.code.distance_encode_of_single (hsingle ha) (hsingle hb)

/-- **Keys are never closer in bytes than in characters.**  The distance between two keys is at
least the least number of insertions, deletions and replacements of characters that turn one into
the other, and exactly that for keys of ASCII.  So a bare name is suggested only where it is at
most two edits of characters away from the key that was written. -/
theorem keyDistance_bounds_characters (a b : String) :
    IsLeast {n | EditsIn n a.toList b.toList} (distance a.toList b.toList) ∧
    distance a.toList b.toList ≤ keyDistance a b ∧
    ((∀ c ∈ a.toList ++ b.toList, c.toNat < 0x80) →
      keyDistance a b = distance a.toList b.toList) ∧
    ∀ table, '.' ∉ b.toList → suggestion? table a = some b →
      distance a.toList b.toList ≤ 2 := by
  refine ⟨isLeast_distance a.toList b.toList, distance_le_keyDistance a b, ?_, ?_⟩
  · intro hascii
    obtain ⟨ha, hb⟩ := List.forall_mem_append.mp hascii
    exact keyDistance_ascii ha hb
  · intro table hbare hsuggested
    have hnear := (suggests_bare_iff hbare).mp (suggestion?_eq_some_iff.mp hsuggested)
    exact (distance_le_keyDistance a b).trans hnear.keyDistance_le

/-- A key of ASCII, and one with an umlaut that is as far from `name` in bytes as a suggestion may
be. -/
theorem keyDistance_bounds_characters_of_umlaut :
    (∀ c ∈ "nmae".toList ++ "name".toList, c.toNat < 0x80) ∧
      keyDistance "nmae" "name" = distance "nmae".toList "name".toList ∧
      '.' ∉ "name".toList ∧ suggestion? (some "greeting") "näme" = some "name" ∧
      distance "näme".toList "name".toList ≤ 2 := by
  have hascii : ∀ c ∈ "nmae".toList ++ "name".toList, c.toNat < 0x80 := by simp
  have hbare : '.' ∉ "name".toList := by decide
  have hsuggested : suggestion? (some "greeting") "näme" = some "name" := by decide +kernel
  obtain ⟨-, -, hsame, -⟩ := keyDistance_bounds_characters "nmae" "name"
  obtain ⟨-, -, -, hclose⟩ := keyDistance_bounds_characters "näme" "name"
  exact ⟨hascii, hsame hascii, hbare, hsuggested, hclose (some "greeting") hbare hsuggested⟩

-- One letter is put in the place of another: that is two bytes, or one if the first is the same.
example : distance "näme".toList "name".toList = 1 ∧ keyDistance "näme" "name" = 2 ∧
    distance "näme".toList "néme".toList = 1 ∧ keyDistance "näme" "néme" = 1 := by
  decide +kernel

end Salutation.Config
