/-
What the writes of a value come to, and which characters they hold.

The fragments of a value are its text on one line, cut up: the strings between the marks are
cut into stretches, and each stretch is escaped on its own.  No control character is left in
the text of a value on one line, since inside strings all of them are escaped and the marks
are none.
-/
import Mathlib.Data.List.SplitBy
import Salutation.Json.Reader

namespace Salutation.Json

@[simp] theorem oneLine_gap (depth : Nat) : oneLine.gap depth = [] := rfl

@[simp] theorem oneLine_afterColon : oneLine.afterColon = [] := rfl

/-! ### Fragments -/

theorem flatten_textFragments (text : List Char) :
    (textFragments text).flatten = text.flatMap escape := by
  have hjoined := List.flatten_splitBy (fun a b => isRaw a && isRaw b) text
  calc (textFragments text).flatten
      = (text.splitBy fun a b => isRaw a && isRaw b).flatMap (·.flatMap escape) := by
        rw [textFragments, List.flatMap_def]
    _ = (text.splitBy fun a b => isRaw a && isRaw b).flatten.flatMap escape := by
        rw [← List.flatMap_id, List.flatMap_assoc]
        rfl
    _ = text.flatMap escape := by rw [hjoined]

theorem flatten_stringFragments (text : List Char) :
    (stringFragments text).flatten = writeString text := by
  simp [stringFragments, writeString, flatten_textFragments]

mutual

/-- The fragments of a value are its text on one line. -/
theorem flatten_fragments : ∀ (value : Value) (depth : Nat),
    (fragments value).flatten = write oneLine depth value
  | .string s, depth => by
      rw [fragments, write, flatten_stringFragments]
  | .object [], depth => by
      simp [fragments, memberFragments, write]
  | .object (first :: more), depth => by
      have hmembers := flatten_memberFragments (first :: more) (depth + 1)
      simp [fragments, write, hmembers]

theorem flatten_memberFragments : ∀ (members : List (String × Value)) (depth : Nat),
    (memberFragments members).flatten = writeMembers oneLine depth members
  | [], depth => by
      rw [memberFragments, writeMembers]
      rfl
  | [(name, value)], depth => by
      have hvalue := flatten_fragments value depth
      simp [memberFragments, writeMembers, flatten_stringFragments, hvalue]
  | (name, value) :: second :: more, depth => by
      have hvalue := flatten_fragments value depth
      have hmore := flatten_memberFragments (second :: more) depth
      simp [memberFragments, writeMembers, flatten_stringFragments, hvalue, hmore]

end

/-! ### What is written for a character -/

/-- The three ways to write a character: a backslash and a letter, a number, or as it is. -/
theorem escape_cases (c : Char) :
    (∃ letter, escape c = ['\\', letter] ∧ ' ' ≤ letter ∧ letter ≠ 'u' ∧
      shortEscape? letter = some c) ∨
    (c < ' ' ∧ escape c = ['\\', 'u', '0', '0', Text.lowerHex (c.toNat / 16),
      Text.lowerHex (c.toNat % 16)]) ∨
    (' ' ≤ c ∧ c ≠ '"' ∧ c ≠ '\\' ∧ escape c = [c]) := by
  by_cases hshort : c = '"' ∨ c = '\\' ∨ c = '\x08' ∨ c = '\x0c' ∨ c = '\n' ∨ c = '\r' ∨ c = '\t'
  · refine Or.inl ?_
    rcases hshort with rfl | rfl | rfl | rfl | rfl | rfl | rfl <;>
      exact ⟨_, rfl, by decide, by decide, rfl⟩
  · refine Or.inr ?_
    simp only [not_or] at hshort
    obtain ⟨hquote, hslash, hb, hf, hn, hr, ht⟩ := hshort
    by_cases hcontrol : c < ' '
    · refine Or.inl ⟨hcontrol, ?_⟩
      simp [escape, hquote, hslash, hb, hf, hn, hr, ht, hcontrol]
    · refine Or.inr ⟨Char.not_lt.mp hcontrol, hquote, hslash, ?_⟩
      simp [escape, hquote, hslash, hb, hf, hn, hr, ht, hcontrol]

/-! ### No control characters -/

/-- A text without control characters below the space. -/
def IsClear (text : List Char) : Prop := ∀ c ∈ text, ' ' ≤ c

@[simp] theorem isClear_nil : IsClear [] := fun _ hc => absurd hc List.not_mem_nil

@[simp] theorem isClear_cons {c : Char} {text : List Char} :
    IsClear (c :: text) ↔ ' ' ≤ c ∧ IsClear text :=
  List.forall_mem_cons

@[simp] theorem isClear_append {a b : List Char} :
    IsClear (a ++ b) ↔ IsClear a ∧ IsClear b :=
  List.forall_mem_append

theorem space_le_lowerHex {n : Nat} (h : n < 16) : ' ' ≤ Text.lowerHex n := by
  have hall : ∀ m < 16, ' ' ≤ Text.lowerHex m := by decide
  exact hall n h

theorem isClear_escape (c : Char) : IsClear (escape c) := by
  rcases escape_cases c with ⟨letter, hescape, hclear, -, -⟩ | ⟨hcontrol, hescape⟩ |
    ⟨hclear, -, -, hescape⟩
  · rw [hescape]
    simpa using hclear
  · have hlt : c.toNat < 0x20 := hcontrol
    have hhigh : ' ' ≤ Text.lowerHex (c.toNat / 16) := space_le_lowerHex (by omega)
    have hlow : ' ' ≤ Text.lowerHex (c.toNat % 16) := space_le_lowerHex (by omega)
    rw [hescape]
    simp [hhigh, hlow]
  · rw [hescape]
    simpa using hclear

@[simp] theorem isClear_writeString (text : List Char) : IsClear (writeString text) := by
  have htext : IsClear (text.flatMap escape) := by
    intro c hc
    obtain ⟨d, -, hcd⟩ := List.mem_flatMap.mp hc
    exact isClear_escape d c hcd
  simp [writeString, htext]

mutual

/-- A value on one line holds no control character below the space, and so no line feed. -/
theorem isClear_write : ∀ (value : Value) (depth : Nat), IsClear (write oneLine depth value)
  | .string s, depth => by
      rw [write]
      exact isClear_writeString s.toList
  | .object [], depth => by
      simp [write]
  | .object (first :: more), depth => by
      have hmembers := isClear_writeMembers (first :: more) (depth + 1)
      simp [write, hmembers]

theorem isClear_writeMembers : ∀ (members : List (String × Value)) (depth : Nat),
    IsClear (writeMembers oneLine depth members)
  | [], depth => by
      simp [writeMembers]
  | [(name, value)], depth => by
      have hvalue := isClear_write value depth
      simp [writeMembers, hvalue]
  | (name, value) :: second :: more, depth => by
      have hvalue := isClear_write value depth
      have hmore := isClear_writeMembers (second :: more) depth
      simp [writeMembers, hvalue, hmore]

end

end Salutation.Json
