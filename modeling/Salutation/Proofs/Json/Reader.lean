/-
Reading gives back the value that was written.

A string is read character by character, and what `escape` writes for a character is read as
that character whatever follows it, so the law for strings is one induction.  A value is read
with the length of its text as fuel.  Each part of a value is shorter than the value, which
is all that the induction over values needs: `readValue_write` holds with any fuel that is
at least the length of the text, and so `read?` never runs out.

The layout does not matter as long as it is made of blanks, which the reader skips.
-/
import Mathlib.Data.List.TakeWhile
import Salutation.Proofs.Json.Value
import Salutation.Proofs.Text.Hex

namespace Salutation.Json

/-! ### Strings -/

@[simp] theorem push_some (c : Char) (text rest : List Char) :
    push c (some (text, rest)) = some (c :: text, rest) := rfl

/-- Four digits that spell a control character are read as that character. -/
theorem readString_number {n : Nat} (h : n < 0x80) (rest : List Char) :
    readString (.number 4 0 none)
      ('0' :: '0' :: Text.lowerHex (n / 16) :: Text.lowerHex (n % 16) :: rest)
        = push (Char.ofNat n) (readString .plain rest) := by
  have hzero : Text.hexValue? '0' = some 0 := by decide
  have hhigh : Text.hexValue? (Text.lowerHex (n / 16)) = some (n / 16) :=
    Text.hexValue?_lowerHex (by omega)
  have hlow : Text.hexValue? (Text.lowerHex (n % 16)) = some (n % 16) :=
    Text.hexValue?_lowerHex (by omega)
  have hleading : isLeading n = false := by
    simp [isLeading]
    omega
  have htrailing : isTrailing n = false := by
    simp [isTrailing]
    omega
  simp [readString, hzero, hhigh, hlow, Nat.div_add_mod', hleading, htrailing]

/-- What is written for a character is read as that character. -/
theorem readString_escape (c : Char) (rest : List Char) :
    readString .plain (escape c ++ rest) = push c (readString .plain rest) := by
  rcases escape_cases c with ⟨letter, hescape, -, hletter, hshort⟩ | ⟨hcontrol, hescape⟩ |
    ⟨hclear, hquote, hslash, hescape⟩
  · rw [hescape, List.cons_append, List.singleton_append]
    simp [readString, hletter, hshort]
  · have hlt : c.toNat < 0x80 := Nat.lt_trans hcontrol (by decide)
    have hnumber := readString_number hlt rest
    rw [Char.ofNat_toNat] at hnumber
    rw [hescape, ← hnumber]
    rfl
  · rw [hescape, List.singleton_append, readString]
    simp [hquote, hslash, Char.not_lt.mpr hclear]

/-- A string is read back from behind its opening quote. -/
theorem readString_flatMap_escape (text rest : List Char) :
    readString .plain (text.flatMap escape ++ '"' :: rest) = some (text, rest) := by
  induction text with
  | nil => rfl
  | cons c more ih =>
      rw [List.flatMap_cons, List.append_assoc, readString_escape, ih, push_some]

/-! ### Values -/

/-- A layout that puts nothing but blanks between the parts. -/
structure Layout.IsBlank (layout : Layout) : Prop where
  gap : ∀ depth, ∀ c ∈ layout.gap depth, isBlank c = true
  afterColon : ∀ c ∈ layout.afterColon, isBlank c = true

theorem oneLine_isBlank : oneLine.IsBlank :=
  ⟨fun _ _ hc => absurd hc List.not_mem_nil, fun _ hc => absurd hc List.not_mem_nil⟩

theorem indented_isBlank : indented.IsBlank := by
  refine ⟨fun depth c hc => ?_, fun c hc => ?_⟩
  · rcases List.mem_cons.mp hc with rfl | hc
    · rfl
    · rw [(List.mem_replicate.mp hc).2]
      rfl
  · rw [List.mem_singleton.mp hc]
    rfl

/-- Blanks are skipped up to the first character that is none. -/
theorem skipBlanks_append {blanks : List Char} (h : ∀ c ∈ blanks, isBlank c = true)
    (rest : List Char) : skipBlanks (blanks ++ rest) = skipBlanks rest := by
  unfold skipBlanks
  exact List.dropWhile_append_of_pos h

theorem skipBlanks_cons {c : Char} (h : isBlank c = false) (rest : List Char) :
    skipBlanks (c :: rest) = c :: rest := by
  unfold skipBlanks
  exact List.dropWhile_cons_of_neg (by simp [h])

/-- Members may start with blanks. -/
theorem readMembers_skipBlanks (fuel : Nat) (text : List Char) :
    readMembers fuel (skipBlanks text) = readMembers fuel text := by
  have htwice : skipBlanks (skipBlanks text) = skipBlanks text :=
    List.dropWhile_eq_self_iff.mpr (List.dropWhile_get_zero_not isBlank text)
  cases fuel with
  | zero => rfl
  | succ fuel => rw [readMembers, readMembers, htwice]

section

variable {layout : Layout} (hblank : layout.IsBlank)

include hblank

/-- Behind a colon the reader skips what the layout puts there. -/
theorem readValue_afterColon (fuel : Nat) (text : List Char) :
    readValue fuel (layout.afterColon ++ text) = readValue fuel text := by
  cases fuel with
  | zero => rfl
  | succ fuel => rw [readValue, readValue, skipBlanks_append hblank.afterColon]

/-- Members start with the quote of the first name. -/
theorem skipBlanks_writeMembers (depth : Nat) (first : String × Value)
    (more : List (String × Value)) (rest : List Char) :
    ∃ tail, skipBlanks (writeMembers layout depth (first :: more) ++ rest) = '"' :: tail := by
  have hquote : ∀ tail : List Char,
      skipBlanks (layout.gap depth ++ '"' :: tail) = '"' :: tail := by
    intro tail
    rw [skipBlanks_append (hblank.gap depth), skipBlanks_cons rfl]
  cases more with
  | nil =>
      simp only [writeMembers, writeString, List.append_assoc, List.cons_append, hquote]
      exact ⟨_, rfl⟩
  | cons second more =>
      simp only [writeMembers, writeString, List.append_assoc, List.cons_append, hquote]
      exact ⟨_, rfl⟩

mutual

/-- A value is read back, whatever follows it, with its length as fuel. -/
theorem readValue_write : ∀ (value : Value) (depth fuel : Nat) (rest : List Char),
    (write layout depth value).length ≤ fuel →
      readValue fuel (write layout depth value ++ rest) = some (value, rest)
  | .string s, depth, fuel, rest, hfuel => by
      cases fuel with
      | zero => simp [write, writeString] at hfuel
      | succ fuel =>
          have hstring := readString_flatMap_escape s.toList rest
          simp only [write, writeString, List.cons_append, List.append_assoc, List.nil_append,
            readValue, skipBlanks_cons (c := '"') rfl, hstring, Option.map_some,
            String.ofList_toList]
  | .object [], depth, fuel, rest, hfuel => by
      cases fuel with
      | zero => simp [write] at hfuel
      | succ fuel => rfl
  | .object (first :: more), depth, fuel, rest, hfuel => by
      cases fuel with
      | zero => simp [write] at hfuel
      | succ fuel =>
          have hlength : (writeMembers layout (depth + 1) (first :: more)).length ≤ fuel := by
            simp only [write, List.length_append, List.length_cons] at hfuel
            omega
          have hmembers := readMembers_write (first :: more) (List.cons_ne_nil _ _) (depth + 1)
            fuel depth rest hlength
          obtain ⟨tail, htail⟩ := skipBlanks_writeMembers hblank (depth + 1) first more
            (layout.gap depth ++ '\x7d' :: rest)
          rw [← readMembers_skipBlanks, htail] at hmembers
          simp only [write, List.cons_append, List.append_assoc, List.nil_append, readValue,
            skipBlanks_cons (c := '\x7b') rfl, htail]
          -- What follows the brace starts with a quote, so the object is not taken for empty.
          show (readMembers fuel ('"' :: tail)).map (fun (members, after) =>
            (Value.object members, after)) = some (.object (first :: more), rest)
          rw [hmembers, Option.map_some]

theorem readMembers_write : ∀ (members : List (String × Value)), members ≠ [] →
    ∀ (depth fuel outer : Nat) (rest : List Char),
      (writeMembers layout depth members).length ≤ fuel →
        readMembers fuel (writeMembers layout depth members ++
          (layout.gap outer ++ '\x7d' :: rest)) = some (members, rest)
  | [], hne, _, _, _, _, _ => absurd rfl hne
  | [(name, value)], _, depth, fuel, outer, rest, hfuel => by
      cases fuel with
      | zero => simp [writeMembers, writeString] at hfuel
      | succ fuel =>
          have hlength : (write layout depth value).length ≤ fuel := by
            simp only [writeMembers, writeString, List.length_append, List.length_cons] at hfuel
            omega
          have hvalue := readValue_write value depth fuel (layout.gap outer ++ '\x7d' :: rest) hlength
          simp only [writeMembers, writeString, List.cons_append, List.append_assoc,
            List.nil_append, readMembers, skipBlanks_append (hblank.gap depth),
            skipBlanks_cons (c := '"') rfl, readString_flatMap_escape,
            skipBlanks_cons (c := ':') rfl, readValue_afterColon hblank, hvalue,
            skipBlanks_append (hblank.gap outer), skipBlanks_cons (c := '\x7d') rfl,
            String.ofList_toList]
  | (name, value) :: second :: more, _, depth, fuel, outer, rest, hfuel => by
      cases fuel with
      | zero => simp [writeMembers, writeString] at hfuel
      | succ fuel =>
          simp only [writeMembers, writeString, List.length_append, List.length_cons] at hfuel
          have hvalue := readValue_write value depth fuel
            (',' :: (writeMembers layout depth (second :: more) ++
              (layout.gap outer ++ '\x7d' :: rest))) (by omega)
          have hmore := readMembers_write (second :: more) (List.cons_ne_nil _ _) depth fuel
            outer rest (by omega)
          simp only [writeMembers, writeString, List.cons_append, List.append_assoc,
            List.nil_append, readMembers, skipBlanks_append (hblank.gap depth),
            skipBlanks_cons (c := '"') rfl, readString_flatMap_escape,
            skipBlanks_cons (c := ':') rfl, readValue_afterColon hblank, hvalue,
            skipBlanks_cons (c := ',') rfl, hmore, Option.map_some, String.ofList_toList]

end

end

/-- **A value that is written in any blank layout is read back**, whatever blanks follow it. -/
theorem read?_write_append {layout : Layout} (hblank : layout.IsBlank) (depth : Nat)
    (value : Value) {blanks : List Char} (hblanks : ∀ c ∈ blanks, isBlank c = true) :
    read? (write layout depth value ++ blanks) = some value := by
  have hvalue := readValue_write hblank value depth
    ((write layout depth value ++ blanks).length + 1) blanks (by simp; omega)
  have hnothing : skipBlanks blanks = [] := List.dropWhile_eq_nil_iff.mpr hblanks
  rw [read?, hvalue]
  simp [hnothing]

theorem read?_write {layout : Layout} (hblank : layout.IsBlank) (depth : Nat) (value : Value) :
    read? (write layout depth value) = some value := by
  have hread := read?_write_append hblank depth value (List.forall_mem_nil _)
  rwa [List.append_nil] at hread

theorem read?_compact (value : Value) : read? (compact value) = some value :=
  read?_write oneLine_isBlank 0 value

end Salutation.Json
