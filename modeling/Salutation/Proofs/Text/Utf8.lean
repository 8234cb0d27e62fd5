/-
Decoding gives back what was encoded, and nothing else is decoded.

A character's bytes are one leading byte and up to three trailing ones, each trailing byte
carrying six bits.  `lead` opens the right sequence for each leading byte, and a trailing
byte adds its bits as long as it lies in the window.  The windows are narrower only behind
the leading bytes 0xE0, 0xED, 0xF0 and 0xF4, and there the character's own range is what
keeps its second byte inside: nothing below 0x800 takes three bytes, nothing below 0x10000
takes four, no surrogate is a character, and nothing goes beyond 0x10FFFF.
Read the other way round, the windows let nothing through but what spells a character, so
bytes that decode are the bytes of a text.

The bytes of a character outside of ASCII are all 0x80 or more, so a byte below that can be
looked for in the bytes of a text as if it were the character itself.  More generally a first byte
is never a trailing one, and no character is written as the beginning of another, so that a text
can be read from any place on.
-/
import Mathlib.Data.Nat.Init
import Salutation.Text.Utf8

namespace Salutation.Utf8

@[simp] theorem encode_nil : encode [] = [] := rfl

@[simp] theorem encode_append (a b : List Char) : encode (a ++ b) = encode a ++ encode b :=
  List.flatMap_append

theorem encode_cons (c : Char) (text : List Char) :
    encode (c :: text) = String.utf8EncodeChar c ++ encode text := rfl

theorem encode_flatten (texts : List (List Char)) :
    encode texts.flatten = (texts.map encode).flatten := by
  induction texts with
  | nil => rfl
  | cons text more ih => simp [ih]

/-! ### The bytes of one character

The bits of a character are cut into groups of six from the end.  The reader shifts what it has by
six bits for each byte and adds the new ones, so that with the last byte the number is together
again.  There is one case for each number of bytes.
-/

private theorem toNat_ofNat {n : Nat} (h : n < 256) : (UInt8.ofNat n).toNat = n := by
  simpa using h

private theorem lead_one {n : Nat} (h : n < 0x80) :
    lead (UInt8.ofNat n) = .char (Char.ofNat n) := by
  unfold lead
  simp only [toNat_ofNat (show n < 256 by omega), if_pos h]

private theorem lead_two {k : Nat} (hlow : 2 ≤ k) (hhigh : k < 0x20) :
    lead (UInt8.ofNat (k + 0xC0)) = .opens ⟨1, 0x80, 0xBF, k⟩ := by
  unfold lead
  simp only [toNat_ofNat (show k + 0xC0 < 256 by omega)]
  grind

private theorem lead_three {k : Nat} (hhigh : k < 0x10) :
    lead (UInt8.ofNat (k + 0xE0)) =
      .opens ⟨2, if k = 0 then 0xA0 else 0x80, if k = 0xD then 0x9F else 0xBF, k⟩ := by
  unfold lead
  simp only [toNat_ofNat (show k + 0xE0 < 256 by omega)]
  grind

private theorem lead_four {k : Nat} (hhigh : k < 5) :
    lead (UInt8.ofNat (k + 0xF0)) =
      .opens ⟨3, if k = 0 then 0x90 else 0x80, if k = 4 then 0x8F else 0xBF, k⟩ := by
  unfold lead
  simp only [toNat_ofNat (show k + 0xF0 < 256 by omega)]
  grind

theorem piecesFrom_cons (open? : Option Pending) (b : UInt8) (rest : Bytes) :
    piecesFrom open? (b :: rest) = (step open? b).1 ++ piecesFrom (step open? b).2 rest := by
  cases open? <;> rfl

private theorem piecesFrom_opens {b : UInt8} {p : Pending} (h : lead b = .opens p)
    (rest : Bytes) : piecesFrom none (b :: rest) = piecesFrom (some p) rest := by
  rw [piecesFrom_cons]
  simp [step, start, h]

/-- A trailing byte in the window adds its six bits, and the last one completes the character. -/
private theorem step_trailing {p : Pending} {bits : Nat} (hbits : bits < 0x40)
    (hlow : p.low ≤ bits + 0x80) (hhigh : bits + 0x80 ≤ p.high) :
    step (some p) (UInt8.ofNat (bits + 0x80)) =
      if p.needed ≤ 1 then ([some (Char.ofNat (p.value * 64 + bits))], none)
      else ([], some ⟨p.needed - 1, 0x80, 0xBF, p.value * 64 + bits⟩) := by
  unfold step
  simp only [toNat_ofNat (show bits + 0x80 < 256 by omega)]
  rw [if_pos ⟨hlow, hhigh⟩, Nat.add_sub_cancel]

private theorem piecesFrom_more {p : Pending} {bits : Nat} (hbits : bits < 0x40)
    (hlow : p.low ≤ bits + 0x80) (hhigh : bits + 0x80 ≤ p.high) (hneeded : 1 < p.needed)
    (rest : Bytes) :
    piecesFrom (some p) (UInt8.ofNat (bits + 0x80) :: rest)
      = piecesFrom (some ⟨p.needed - 1, 0x80, 0xBF, p.value * 64 + bits⟩) rest := by
  rw [piecesFrom_cons, step_trailing hbits hlow hhigh, if_neg (Nat.not_le.mpr hneeded)]
  rfl

private theorem piecesFrom_last {p : Pending} {bits : Nat} (hbits : bits < 0x40)
    (hlow : p.low ≤ bits + 0x80) (hhigh : bits + 0x80 ≤ p.high) (hneeded : p.needed = 1)
    (rest : Bytes) :
    piecesFrom (some p) (UInt8.ofNat (bits + 0x80) :: rest)
      = some (Char.ofNat (p.value * 64 + bits)) :: piecesFrom none rest := by
  rw [piecesFrom_cons, step_trailing hbits hlow hhigh, if_pos (Nat.le_of_eq hneeded)]
  rfl

/-- The bytes of a character are read as that character. -/
theorem piecesFrom_encodeChar (c : Char) (rest : Bytes) :
    piecesFrom none (String.utf8EncodeChar c ++ rest) = some c :: piecesFrom none rest := by
  have hvalid : c.val.toNat < 0xD800 ∨ 0xDFFF < c.val.toNat ∧ c.val.toNat < 0x110000 := c.valid
  have hchar : Char.ofNat c.val.toNat = c := Char.ofNat_toNat c
  unfold String.utf8EncodeChar
  generalize c.val.toNat = v at hvalid hchar
  simp only
  split
  · rename_i h1
    rw [List.singleton_append, piecesFrom_cons]
    simp [step, start, lead_one (show v < 0x80 by omega), hchar]
  · split
    · rename_i h1 h2
      have hk : v / 64 % 32 = v / 64 := by omega
      rw [hk, List.cons_append, piecesFrom_opens (lead_two (by omega) (by omega)),
        List.singleton_append, piecesFrom_last (by omega) (by simp) (by simp; omega) rfl]
      rw [show v / 64 * 64 + v % 64 = v by omega, hchar]
    · split
      · rename_i h1 h2 h3
        have hk : v / 4096 % 16 = v / 4096 := by omega
        rw [hk, List.cons_append, piecesFrom_opens (lead_three (by omega)), List.cons_append,
          piecesFrom_more (by omega) (by simp only; split <;> omega)
            (by simp only; split <;> omega) (by simp),
          List.singleton_append, piecesFrom_last (by omega) (by simp) (by simp; omega) rfl]
        rw [show (v / 4096 * 64 + v / 64 % 64) * 64 + v % 64 = v by omega, hchar]
      · rename_i h1 h2 h3
        have hk : v / 262144 % 8 = v / 262144 := by omega
        rw [hk, List.cons_append, piecesFrom_opens (lead_four (by omega)), List.cons_append,
          piecesFrom_more (by omega) (by simp only; split <;> omega)
            (by simp only; split <;> omega) (by simp),
          List.cons_append,
          piecesFrom_more (by omega) (by simp) (by simp; omega) (by simp),
          List.singleton_append, piecesFrom_last (by omega) (by simp) (by simp; omega) rfl]
        rw [show ((v / 262144 * 64 + v / 4096 % 64) * 64 + v / 64 % 64) * 64 + v % 64 = v by omega,
          hchar]

/-! ### The bytes of a text -/

theorem pieces_encode (text : List Char) : pieces (encode text) = text.map some := by
  unfold pieces
  induction text with
  | nil => rfl
  | cons c more ih => rw [encode_cons, piecesFrom_encodeChar, ih, List.map_cons]

theorem allChars_map_some (text : List Char) : allChars (text.map some) = some text := by
  induction text with
  | nil => rfl
  | cons c more ih => simp [allChars, ih]

/-- **Decoding gives back the text that was encoded.** -/
@[simp] theorem decode?_encode (text : List Char) : decode? (encode text) = some text := by
  unfold decode?
  rw [pieces_encode, allChars_map_some]

theorem encode_injective {a b : List Char} (h : encode a = encode b) : a = b := by
  have hdecode := congrArg decode? h
  simpa using hdecode

theorem bytesOf_injective : Function.Injective bytesOf := fun _ _ h =>
  String.toList_injective (encode_injective h)

/-- A byte of ASCII stands only for itself. -/
theorem mem_utf8EncodeChar_ascii {c : Char} {b : UInt8} (hb : b ∈ String.utf8EncodeChar c)
    (hascii : b.toNat < 0x80) : c.toNat = b.toNat := by
  unfold String.utf8EncodeChar at hb
  show c.val.toNat = b.toNat
  generalize c.val.toNat = v at hb
  simp only at hb
  have hlarge : ∀ n, 0x80 ≤ n → n < 256 → b ≠ UInt8.ofNat n := by
    rintro n hlow hhigh rfl
    rw [toNat_ofNat hhigh] at hascii
    omega
  split at hb
  · rename_i h1
    rw [List.mem_singleton.mp hb, toNat_ofNat (by omega)]
  · exfalso
    split at hb
    · simp only [List.mem_cons, List.not_mem_nil, or_false] at hb
      rcases hb with hb | hb <;> exact hlarge _ (by omega) (by omega) hb
    · split at hb
      · simp only [List.mem_cons, List.not_mem_nil, or_false] at hb
        rcases hb with hb | hb | hb <;> exact hlarge _ (by omega) (by omega) hb
      · simp only [List.mem_cons, List.not_mem_nil, or_false] at hb
        rcases hb with hb | hb | hb | hb <;> exact hlarge _ (by omega) (by omega) hb

/-- A character of ASCII is written as a single byte. -/
theorem utf8EncodeChar_ascii {c : Char} (h : c.toNat < 0x80) :
    ∃ b, String.utf8EncodeChar c = [b] := by
  have hsize : c.utf8Size = 1 := Char.utf8Size_eq_one_iff.mpr (Nat.le_of_lt_succ h)
  exact ⟨_, String.utf8EncodeChar_eq_singleton hsize⟩

/-- No character is written as the beginning of another. -/
theorem eq_of_utf8EncodeChar_prefix {c d : Char}
    (h : String.utf8EncodeChar c <+: String.utf8EncodeChar d) : c = d := by
  obtain ⟨rest, hrest⟩ := h
  have hread := piecesFrom_encodeChar d []
  rw [List.append_nil, ← hrest, piecesFrom_encodeChar] at hread
  exact Option.some.inj (List.cons.inj hread).1

/-- A trailing byte of a character is the first byte of none. -/
theorem isUTF8FirstByte_of_utf8EncodeChar {c : Char} {first : UInt8} {trailing : Bytes}
    (h : String.utf8EncodeChar c = first :: trailing) :
    first.IsUTF8FirstByte ∧ ∀ b ∈ trailing, ¬b.IsUTF8FirstByte := by
  have hbyte : ∀ i (hi : i < (first :: trailing).length),
      ((first :: trailing)[i]).IsUTF8FirstByte ↔ i = 0 := by
    rw [← h]
    exact fun _ _ => UInt8.isUTF8FirstByte_getElem_utf8EncodeChar
  constructor
  · exact (hbyte 0 (Nat.zero_lt_succ _)).mpr rfl
  · intro b hb
    obtain ⟨i, hi, rfl⟩ := List.getElem_of_mem hb
    have htrailing := hbyte (i + 1) (Nat.succ_lt_succ hi)
    simpa using htrailing

/-- A byte of ASCII among the bytes of a text is one of its characters. -/
theorem mem_encode_ascii {text : List Char} {b : UInt8} (hb : b ∈ encode text)
    (hascii : b.toNat < 0x80) : ∃ c ∈ text, c.toNat = b.toNat := by
  obtain ⟨c, hc, hbc⟩ := List.mem_flatMap.mp hb
  exact ⟨c, hc, mem_utf8EncodeChar_ascii hbc hascii⟩

/-! ### Only the bytes of a text are read as text

If the bytes are a text to the reader, each trailing byte lies in the window that is open for it.
The leading byte and these windows bound the number of the character from both sides, and within
the bounds it is written in just as many bytes.  There is one lemma for each number of bytes.
-/

/-- Where text is read inside of a sequence, the next byte is there and lies in its window. -/
private theorem allChars_some_pending {p : Pending} {rest : Bytes} {text : List Char}
    (h : allChars (piecesFrom (some p) rest) = some text) :
    ∃ b more, rest = b :: more ∧ p.low ≤ b.toNat ∧ b.toNat ≤ p.high ∧
      allChars (if p.needed ≤ 1
        then some (Char.ofNat (p.value * 64 + (b.toNat - 0x80))) :: piecesFrom none more
        else piecesFrom (some ⟨p.needed - 1, 0x80, 0xBF, p.value * 64 + (b.toNat - 0x80)⟩) more) =
          some text := by
  cases rest with
  | nil => cases h
  | cons b more =>
      rw [piecesFrom_cons, step] at h
      by_cases hwindow : p.low ≤ b.toNat ∧ b.toNat ≤ p.high
      · refine ⟨b, more, rfl, hwindow.1, hwindow.2, ?_⟩
        simp only [if_pos hwindow] at h
        by_cases hlast : p.needed ≤ 1
        · rw [if_pos hlast] at h ⊢
          exact h
        · rw [if_neg hlast] at h ⊢
          exact h
      · simp only [if_neg hwindow] at h
        cases h

/-- Text that starts with a character is the character and the text behind it. -/
private theorem allChars_cons {c : Char} {pieces : List Piece} {text : List Char}
    (h : allChars (some c :: pieces) = some text) :
    ∃ more, text = c :: more ∧ allChars pieces = some more := by
  rw [allChars] at h
  obtain ⟨more, hmore, rfl⟩ := Option.map_eq_some_iff.mp h
  exact ⟨more, rfl, hmore⟩

/-- A byte that is a character by itself is one of ASCII. -/
private theorem lead_char_cases {b : UInt8} {c : Char} (h : lead b = .char c) :
    c = Char.ofNat b.toNat ∧ b.toNat < 0x80 := by
  unfold lead at h
  grind

/-- What a leading byte opens, by the number of bytes that it still needs. -/
private theorem lead_opens_cases {b : UInt8} {p : Pending} (h : lead b = .opens p) :
    (p = ⟨1, 0x80, 0xBF, b.toNat - 0xC0⟩ ∧ 0xC2 ≤ b.toNat ∧ b.toNat < 0xE0) ∨
    (p = ⟨2, if b.toNat = 0xE0 then 0xA0 else 0x80, if b.toNat = 0xED then 0x9F else 0xBF,
        b.toNat - 0xE0⟩ ∧ 0xE0 ≤ b.toNat ∧ b.toNat < 0xF0) ∨
    (p = ⟨3, if b.toNat = 0xF0 then 0x90 else 0x80, if b.toNat = 0xF4 then 0x8F else 0xBF,
        b.toNat - 0xF0⟩ ∧ 0xF0 ≤ b.toNat ∧ b.toNat < 0xF5) := by
  unfold lead at h
  grind

/-- A character is written in the bytes that spell its number. -/
private theorem utf8EncodeChar_eq {v : Nat} (hvalid : v.isValidChar) {bytes : Bytes}
    (hbytes : bytes.map UInt8.toNat =
      if v ≤ 0x7F then [v]
      else if v ≤ 0x7FF then [v / 64 + 0xC0, v % 64 + 0x80]
      else if v ≤ 0xFFFF then [v / 4096 + 0xE0, v / 64 % 64 + 0x80, v % 64 + 0x80]
      else [v / 262144 + 0xF0, v / 4096 % 64 + 0x80, v / 64 % 64 + 0x80, v % 64 + 0x80]) :
    String.utf8EncodeChar (Char.ofNat v) = bytes := by
  have hv : (Char.ofNat v).val.toNat = v := by
    rw [Char.ofNat, dif_pos hvalid]
    rfl
  have hback : bytes = (bytes.map UInt8.toNat).map UInt8.ofNat := by
    simp [List.map_map, Function.comp_def]
  rw [hback, hbytes]
  unfold String.utf8EncodeChar
  simp only [hv]
  have hlimit : v < 0x110000 := by
    rcases hvalid with h | h <;> omega
  split
  · rfl
  · split
    · simp only [List.map_cons, List.map_nil]
      rw [show v / 64 % 32 = v / 64 by omega]
    · split
      · simp only [List.map_cons, List.map_nil]
        rw [show v / 4096 % 16 = v / 4096 by omega]
      · simp only [List.map_cons, List.map_nil]
        rw [show v / 262144 % 8 = v / 262144 by omega]

/-- A text and its bytes start with the same character, and text is read of the bytes behind it. -/
def StartWithChar (bytes : Bytes) (text : List Char) : Prop :=
  ∃ c rest more, bytes = String.utf8EncodeChar c ++ rest ∧ text = c :: more ∧
    allChars (piecesFrom none rest) = some more

private theorem startWithChar_of_spells (read : Bytes) {v : Nat} {rest : Bytes} {text : List Char}
    (h : allChars (some (Char.ofNat v) :: piecesFrom none rest) = some text)
    (hread : String.utf8EncodeChar (Char.ofNat v) = read) : StartWithChar (read ++ rest) text := by
  obtain ⟨more, htext, hmore⟩ := allChars_cons h
  exact ⟨Char.ofNat v, rest, more, by rw [hread], htext, hmore⟩

private theorem startWithChar_one {b : UInt8} {rest : Bytes} {text : List Char}
    (hascii : b.toNat < 0x80)
    (h : allChars (some (Char.ofNat b.toNat) :: piecesFrom none rest) = some text) :
    StartWithChar (b :: rest) text := by
  refine startWithChar_of_spells [b] h (utf8EncodeChar_eq (by omega) ?_)
  rw [if_pos (by omega)]
  rfl

private theorem startWithChar_two {b : UInt8} {rest : Bytes} {text : List Char}
    (hmin : 0xC2 ≤ b.toNat) (hmax : b.toNat < 0xE0)
    (h : allChars (piecesFrom (some ⟨1, 0x80, 0xBF, b.toNat - 0xC0⟩) rest) = some text) :
    StartWithChar (b :: rest) text := by
  obtain ⟨b₁, rest, rfl, hlow, hhigh, h⟩ := allChars_some_pending h
  simp only [Nat.le_refl, if_true] at hlow hhigh h
  refine startWithChar_of_spells [b, b₁] h (utf8EncodeChar_eq (by omega) ?_)
  rw [if_neg (by omega), if_pos (by omega)]
  simp only [List.map_cons, List.map_nil, List.cons.injEq, and_true]
  omega

private theorem startWithChar_three {b : UInt8} {rest : Bytes} {text : List Char}
    (hmin : 0xE0 ≤ b.toNat) (hmax : b.toNat < 0xF0)
    (h : allChars (piecesFrom (some ⟨2, if b.toNat = 0xE0 then 0xA0 else 0x80,
      if b.toNat = 0xED then 0x9F else 0xBF, b.toNat - 0xE0⟩) rest) = some text) :
    StartWithChar (b :: rest) text := by
  obtain ⟨b₁, rest, rfl, hlow, hhigh, h⟩ := allChars_some_pending h
  simp only [Nat.reduceLeDiff, if_false, Nat.reduceSub] at hlow hhigh h
  obtain ⟨b₂, rest, rfl, hlow₂, hhigh₂, h⟩ := allChars_some_pending h
  simp only [Nat.le_refl, if_true] at hlow₂ hhigh₂ h
  have hlow' : 0x80 ≤ b₁.toNat ∧ (b.toNat = 0xE0 → 0xA0 ≤ b₁.toNat) := by
    split at hlow <;> omega
  have hhigh' : b₁.toNat ≤ 0xBF ∧ (b.toNat = 0xED → b₁.toNat ≤ 0x9F) := by
    split at hhigh <;> omega
  refine startWithChar_of_spells [b, b₁, b₂] h (utf8EncodeChar_eq (by omega) ?_)
  rw [if_neg (by omega), if_neg (by omega), if_pos (by omega)]
  simp only [List.map_cons, List.map_nil, List.cons.injEq, and_true]
  omega

private theorem startWithChar_four {b : UInt8} {rest : Bytes} {text : List Char}
    (hmin : 0xF0 ≤ b.toNat) (hmax : b.toNat < 0xF5)
    (h : allChars (piecesFrom (some ⟨3, if b.toNat = 0xF0 then 0x90 else 0x80,
      if b.toNat = 0xF4 then 0x8F else 0xBF, b.toNat - 0xF0⟩) rest) = some text) :
    StartWithChar (b :: rest) text := by
  obtain ⟨b₁, rest, rfl, hlow, hhigh, h⟩ := allChars_some_pending h
  simp only [Nat.reduceLeDiff, if_false, Nat.reduceSub] at hlow hhigh h
  obtain ⟨b₂, rest, rfl, hlow₂, hhigh₂, h⟩ := allChars_some_pending h
  simp only [Nat.reduceLeDiff, if_false, Nat.reduceSub] at hlow₂ hhigh₂ h
  obtain ⟨b₃, rest, rfl, hlow₃, hhigh₃, h⟩ := allChars_some_pending h
  simp only [Nat.le_refl, if_true] at hlow₃ hhigh₃ h
  have hlow' : 0x80 ≤ b₁.toNat ∧ (b.toNat = 0xF0 → 0x90 ≤ b₁.toNat) := by
    split at hlow <;> omega
  have hhigh' : b₁.toNat ≤ 0xBF ∧ (b.toNat = 0xF4 → b₁.toNat ≤ 0x8F) := by
    split at hhigh <;> omega
  refine startWithChar_of_spells [b, b₁, b₂, b₃] h (utf8EncodeChar_eq (by omega) ?_)
  rw [if_neg (by omega), if_neg (by omega), if_neg (by omega)]
  simp only [List.map_cons, List.map_nil, List.cons.injEq, and_true]
  omega

/-- What is read as text starts with a character that is spelled there. -/
theorem startWithChar_of_allChars {b : UInt8} {rest : Bytes} {text : List Char}
    (h : allChars (piecesFrom none (b :: rest)) = some text) : StartWithChar (b :: rest) text := by
  cases hlead : lead b with
  | invalid =>
      rw [piecesFrom_cons, step, start, hlead] at h
      cases h
  | char c =>
      obtain ⟨rfl, hascii⟩ := lead_char_cases hlead
      rw [piecesFrom_cons, step, start, hlead] at h
      exact startWithChar_one hascii h
  | opens p =>
      rw [piecesFrom_opens hlead] at h
      rcases lead_opens_cases hlead with ⟨rfl, hmin, hmax⟩ | ⟨rfl, hmin, hmax⟩ | ⟨rfl, hmin, hmax⟩
      · exact startWithChar_two hmin hmax h
      · exact startWithChar_three hmin hmax h
      · exact startWithChar_four hmin hmax h

/-- What is read as text is the encoding of that text. -/
theorem encode_of_allChars {bytes : Bytes} {text : List Char}
    (h : allChars (piecesFrom none bytes) = some text) : encode text = bytes := by
  induction hlength : bytes.length using Nat.strong_induction_on generalizing bytes text with
  | _ length ih =>
      cases bytes with
      | nil =>
          cases h
          rfl
      | cons b rest =>
          obtain ⟨c, left, more, hbytes, rfl, hmore⟩ := startWithChar_of_allChars h
          have hshorter : left.length < length := by
            have hpos : 0 < (String.utf8EncodeChar c).length := by
              rw [String.length_utf8EncodeChar]
              exact Char.utf8Size_pos c
            rw [← hlength, hbytes, List.length_append]
            omega
          rw [encode_cons, ih left.length hshorter hmore rfl, hbytes]

/-- **Only the bytes of a text are decoded.** -/
theorem decode?_eq_some_iff {bytes : Bytes} {text : List Char} :
    decode? bytes = some text ↔ encode text = bytes := by
  constructor
  · exact encode_of_allChars
  · rintro rfl
    exact decode?_encode text

theorem decode?_eq_none_iff {bytes : Bytes} :
    decode? bytes = none ↔ ∀ text, encode text ≠ bytes := by
  simp [Option.eq_none_iff_forall_ne_some, decode?_eq_some_iff]

end Salutation.Utf8
