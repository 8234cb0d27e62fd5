/-
Lower case and the ASCII letters.

Within ASCII the lower-case form of a character is the same as if there were no other letters.
Beyond ASCII nothing becomes an ASCII text, with one exception: each run of capitals stays
beyond ASCII as a whole, which is checked at its two ends, the dotted capital I leaves its dot
behind, and only the Kelvin sign becomes a k.  So a text whose lower-case form is a given ASCII
word without a k is that word in capitals or small letters.

The form of a capital sigma depends on its place.  `LowersTo` allows both forms everywhere, so
that what is proved of it holds of either rule.
-/
import Mathlib.Tactic.ByContra
import Salutation.Text.LowerCase

namespace Salutation.Text

/-- Texts that are the same but for the case of ASCII letters. -/
def SameLetters (a b : List Char) : Prop :=
  a.map Char.toLower = b.map Char.toLower

instance (a b : List Char) : Decidable (SameLetters a b) :=
  inferInstanceAs (Decidable (_ = _))

/-- The ways to lower a text: character by character, with either form of a capital sigma. -/
inductive LowersTo : List Char → List Char → Prop where
  | nil : LowersTo [] []
  | char (c : Char) {text lowered : List Char} (more : LowersTo text lowered) :
      LowersTo (c :: text) (lowerChar c ++ lowered)
  | finalSigma {text lowered : List Char} (more : LowersTo text lowered) :
      LowersTo ('Σ' :: text) ('ς' :: lowered)

theorem lowersTo_lower (text : List Char) : LowersTo text (lower text) := by
  induction text with
  | nil => exact .nil
  | cons c text ih => exact .char c ih

/-! ### Characters

The table of the capitals is a finite one, but what is asked of it concerns every character.  All
that matters of a run is where its ends go, and that is checked once for each run.
-/

theorem lowerChar_ascii {c : Char} (h : c.toNat < 128) : lowerChar c = [c.toLower] := by
  have hall : ∀ n < 128, lowerChar (Char.ofNat n) = [(Char.ofNat n).toLower] := by
    decide +kernel
  rw [← Char.ofNat_toNat c]
  exact hall c.toNat h

/-- Where the forms of a run of capitals lie: beyond ASCII and among the characters. -/
structure CaseRun.IsFar (run : CaseRun) : Prop where
  low : 128 ≤ run.first + run.shift
  high : run.last + run.shift < 0xD800 ∨
    0xDFFF < run.first + run.shift ∧ run.last + run.shift < 0x110000

instance (run : CaseRun) : Decidable run.IsFar :=
  decidable_of_iff (128 ≤ run.first + run.shift ∧ (run.last + run.shift < 0xD800 ∨
    0xDFFF < run.first + run.shift ∧ run.last + run.shift < 0x110000))
    ⟨fun h => ⟨h.1, h.2⟩, fun h => ⟨h.low, h.high⟩⟩

/-- A run lies within ASCII, or is the Kelvin sign, or stays beyond ASCII. -/
theorem caseRuns_cases : ∀ run ∈ caseRuns,
    run.last < 128 ∨ run.first = 0x212A ∧ run.last = 0x212A ∧ run.shift = -8383 ∨ run.IsFar := by
  decide +kernel

theorem toNat_ofNat_of_isFar {run : CaseRun} (hfar : run.IsFar) {n : Nat}
    (hfirst : run.first ≤ n) (hlast : n ≤ run.last) :
    128 ≤ (Char.ofNat (n + run.shift).toNat).toNat := by
  have hlow := hfar.low
  have hvalid : ((n + run.shift).toNat).isValidChar := by
    rcases hfar.high with hhigh | ⟨hgap, hhigh⟩
    · exact Or.inl (by omega)
    · exact Or.inr ⟨by omega, by omega⟩
  rw [Char.ofNat, dif_pos hvalid]
  show 128 ≤ (n + run.shift).toNat
  omega

/-- What a character beyond ASCII becomes holds a character beyond ASCII, or a k. -/
theorem exists_of_not_ascii {c : Char} (h : 128 ≤ c.toNat) :
    ∃ d ∈ lowerChar c, 128 ≤ d.toNat ∨ d = 'k' := by
  unfold lowerChar
  split
  case isTrue => exact ⟨'\u0307', by simp, Or.inl (by decide)⟩
  case isFalse =>
    split
    case h_1 run hfind =>
      have hmem := List.mem_of_find?_eq_some hfind
      obtain ⟨⟨hfirst, hlast⟩, -⟩ : (run.first ≤ c.toNat ∧ c.toNat ≤ run.last) ∧ _ := by
        simpa [CaseRun.covers] using List.find?_some hfind
      refine ⟨_, List.mem_singleton_self _, ?_⟩
      rcases caseRuns_cases run hmem with hascii | ⟨hkelvin, hkelvin', hshift⟩ | hfar
      · omega
      · obtain hc : c.toNat = 0x212A := by omega
        rw [hc, hshift]
        exact Or.inr rfl
      · exact Or.inl (toNat_ofNat_of_isFar hfar hfirst hlast)
    case h_2 => exact ⟨c, List.mem_singleton_self c, Or.inl h⟩

/-- A small letter of ASCII is no other character's. -/
theorem ascii_of_toLower {c : Char} (h : c.toLower.toNat < 128) : c.toNat < 128 := by
  unfold Char.toLower at h
  split at h
  case isTrue hupper =>
    have hlast : c.val ≤ 'Z'.val := hupper.2
    have hbound : c.toNat ≤ 90 := hlast
    omega
  case isFalse => exact h

/-! ### Words -/

/-- A word of ASCII characters without a capital, and without the one that another character
becomes. -/
def IsPlainWord (word : List Char) : Prop :=
  ∀ c ∈ word, c.toNat < 128 ∧ c.toLower = c ∧ c ≠ 'k'

instance (word : List Char) : Decidable (IsPlainWord word) :=
  List.decidableBAll (fun c : Char => c.toNat < 128 ∧ c.toLower = c ∧ c ≠ 'k') word

theorem IsPlainWord.map_toLower {word : List Char} (h : IsPlainWord word) :
    word.map Char.toLower = word := by
  have hsame : ∀ c ∈ word, c.toLower = id c := fun c hc => (h c hc).2.1
  rw [List.map_congr_left hsame, List.map_id]

theorem IsPlainWord.sameLetters_iff {text word : List Char} (h : IsPlainWord word) :
    SameLetters text word ↔ text.map Char.toLower = word := by
  rw [SameLetters, h.map_toLower]

/-- Whatever has the letters of a plain word is ASCII. -/
theorem IsPlainWord.ascii {text word : List Char} (h : IsPlainWord word)
    (hsame : SameLetters text word) {c : Char} (hc : c ∈ text) : c.toNat < 128 := by
  have hmem : c.toLower ∈ word := by
    rw [← h.sameLetters_iff.mp hsame]
    exact List.mem_map_of_mem hc
  exact ascii_of_toLower (h c.toLower hmem).1

/-- What a text with a character beyond ASCII becomes is no plain word. -/
theorem IsPlainWord.ascii_of_lowersTo {text word : List Char} (h : IsPlainWord word)
    (hlowers : LowersTo text word) {c : Char} (hc : c ∈ text) : c.toNat < 128 := by
  induction hlowers with
  | nil => cases hc
  | @char first text lowered _ ih =>
      have hlater : IsPlainWord lowered := fun d hd =>
        h d (List.mem_append_right (lowerChar first) hd)
      rcases List.mem_cons.mp hc with rfl | hc
      · by_contra hother
        obtain ⟨d, hd, hfar | hkelvin⟩ := exists_of_not_ascii (Nat.le_of_not_lt hother)
        · have hplain := h d (List.mem_append_left lowered hd)
          omega
        · exact (h d (List.mem_append_left lowered hd)).2.2 hkelvin
      · exact ih hlater hc
  | finalSigma =>
      have hplain := h 'ς' List.mem_cons_self
      exact absurd hplain.1 (by decide)

/-- An ASCII text is lowered in one way only. -/
theorem LowersTo.eq_of_ascii {text lowered : List Char} (h : LowersTo text lowered)
    (hascii : ∀ c ∈ text, c.toNat < 128) : lowered = text.map Char.toLower := by
  induction h with
  | nil => rfl
  | @char c text _ _ ih =>
      rw [lowerChar_ascii (hascii c List.mem_cons_self), List.map_cons, List.singleton_append,
        ih fun d hd => hascii d (List.mem_cons_of_mem c hd)]
  | finalSigma => exact absurd (hascii 'Σ' List.mem_cons_self) (by decide)

/-- **A text becomes a plain word exactly if it is that word but for the case of ASCII
letters.** -/
theorem LowersTo.eq_iff {text lowered word : List Char} (h : LowersTo text lowered)
    (hword : IsPlainWord word) : lowered = word ↔ SameLetters text word := by
  constructor
  · rintro rfl
    rw [hword.sameLetters_iff]
    exact (h.eq_of_ascii fun _ hc => hword.ascii_of_lowersTo h hc).symm
  · intro hsame
    rw [h.eq_of_ascii fun _ hc => hword.ascii hsame hc]
    exact hword.sameLetters_iff.mp hsame

end Salutation.Text
