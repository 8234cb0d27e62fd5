/-
A written string is read back.

The writer has five ways to write a text, and `formFor` chooses.  Each way spells the text
in the sense of the reader's grammar: with escapes, `writeEscaped` breaks up quotes that
stand three in a row; without escapes the choice has made sure that there are none.  What
is left is to see that the reader recognizes the form from the first quotes, and that it
drops the line ending behind the opening quotes exactly when the writer has put one there.
-/
import Salutation.Proofs.Toml.Quoted
import Salutation.Toml.Value
import Salutation.Toml.Writer

namespace Salutation.Toml

/-! ### Characters -/

/-- A character that is no control stands for itself, a line feed only in a block. -/
theorem isPlain_of_not_isControl {c : Char} (h : isControl c = false) :
    isPlain c = true ∨ c = '\n' := by
  simp only [isControl, Bool.or_eq_false_iff, Bool.and_eq_false_iff, decide_eq_false_iff_not,
    not_not] at h
  obtain ⟨hsmall, hdelete⟩ := h
  rcases hsmall with (hspace | htab) | hfeed
  · exact Or.inl (by simp [isPlain, hdelete, Char.not_lt.mp hspace])
  · exact Or.inl (by simp [isPlain, htab])
  · exact Or.inr hfeed

theorem toNat_lt_of_isControl {c : Char} (h : isControl c = true) : c.toNat < 0x80 := by
  simp only [isControl, Bool.or_eq_true, Bool.and_eq_true, decide_eq_true_eq] at h
  rcases h with ⟨⟨hspace, -⟩, -⟩ | hdelete
  · exact Nat.lt_trans hspace (by decide)
  · rw [hdelete]
    decide

/-- A character is escaped by a letter or by its number, or written as it is. -/
theorem escape_cases (c : Char) :
    (∃ letter, escape c = ['\\', letter] ∧ shortEscape? letter = some c) ∨
      (c.toNat < 0x80 ∧ escape c = ['\\', 'u', '0', '0', Text.upperHex (c.toNat / 16),
        Text.upperHex (c.toNat % 16)]) ∨
      (escape c = [c] ∧ c ≠ '\\' ∧ isControl c = false) := by
  unfold escape
  by_cases htab : c = '\t'
  · exact Or.inl ⟨'t', by simp [htab], by rw [htab]; rfl⟩
  by_cases hback : c = '\x08'
  · exact Or.inl ⟨'b', by simp [hback], by rw [hback]; rfl⟩
  by_cases hform : c = '\x0c'
  · exact Or.inl ⟨'f', by simp [hform], by rw [hform]; rfl⟩
  by_cases hreturn : c = '\r'
  · exact Or.inl ⟨'r', by simp [hreturn], by rw [hreturn]; rfl⟩
  by_cases hslash : c = '\\'
  · exact Or.inl ⟨'\\', by simp [hslash], by rw [hslash]; rfl⟩
  simp only [htab, hback, hform, hreturn, hslash, if_false]
  by_cases hcontrol : isControl c = true
  · exact Or.inr (Or.inl ⟨toNat_lt_of_isControl hcontrol, by rw [if_pos hcontrol]⟩)
  · exact Or.inr (Or.inr ⟨by rw [if_neg hcontrol], hslash, by simpa using hcontrol⟩)

/-! ### Texts -/

/-- What is written with escapes spells the text, a text with a line feed in a block. -/
theorem writeEscaped_spells {block : Bool} {text : List Char}
    (hline : block = true ∨ '\n' ∉ text) {run : Nat} (hrun : run ≤ 2) :
    Spells ⟨'"', true, block⟩ run (writeEscaped block run text) text := by
  induction text generalizing run with
  | nil => exact Spells.nil run
  | cons c rest ih =>
      have hrest : block = true ∨ '\n' ∉ rest := hline.imp_right List.not_mem_of_not_mem_cons
      have ih' : Spells ⟨'"', true, block⟩ 0 (writeEscaped block 0 rest) rest :=
        ih hrest (Nat.zero_le 2)
      unfold writeEscaped
      split
      case isTrue hquote =>
        rw [hquote]
        split
        case isTrue => exact Spells.short rfl rfl ih'
        case isFalse hroom =>
          simp only [Bool.or_eq_true, Bool.not_eq_true', decide_eq_true_eq, not_or,
            Bool.not_eq_false] at hroom
          obtain ⟨hblock, htwo⟩ := hroom
          exact Spells.mark hblock (by omega) (ih hrest (by omega))
      case isFalse hquote =>
        rcases escape_cases c with ⟨letter, hescape, hletter⟩ | ⟨hlt, hescape⟩ |
          ⟨hescape, hslash, hcontrol⟩
        · rw [hescape]
          exact Spells.short rfl hletter ih'
        · rw [hescape]
          have hcode : Spells ⟨'"', true, block⟩ run _ (Char.ofNat c.toNat :: rest) :=
            Spells.code rfl hlt ih'
          rwa [Char.ofNat_toNat] at hcode
        · rw [hescape]
          refine Spells.plain hquote (fun _ => hslash) ?_ ih'
          rcases isPlain_of_not_isControl hcontrol with hplain | hfeed
          · exact Or.inl hplain
          · exact Or.inr ⟨hline.resolve_right (by simp [hfeed]), hfeed⟩

theorem hasThree_of_cons {mark c : Char} {text : List Char}
    (h : hasThree mark (c :: text) = false) : hasThree mark text = false := by
  match text with
  | [] => rfl
  | [_] => rfl
  | a :: b :: rest => exact (Bool.or_eq_false_iff.mp h).2

theorem hasThree_of_append {mark : Char} (front : List Char) {text : List Char}
    (h : hasThree mark (front ++ text) = false) : hasThree mark text = false := by
  induction front with
  | nil => exact h
  | cons c front ih => exact ih (hasThree_of_cons h)

theorem hasThree_of_not_mem {mark : Char} {text : List Char} (h : mark ∉ text) :
    hasThree mark text = false := by
  induction text with
  | nil => rfl
  | cons a text ih =>
      have htail : hasThree mark text = false := ih (List.not_mem_of_not_mem_cons h)
      have hhead : a ≠ mark := (List.ne_of_not_mem_cons h).symm
      match text with
      | [] => rfl
      | [_] => rfl
      | b :: c :: rest => simpa [hasThree, hhead] using htail

/-- A text without controls spells itself where nothing is escaped, as long as its quotes
stand where they may. -/
theorem raw_spells {mark : Char} {block : Bool} {text : List Char}
    (hcontrol : ∀ c ∈ text, isControl c = false) (hline : block = true ∨ '\n' ∉ text)
    {run : Nat} (hthree : hasThree mark (List.replicate run mark ++ text) = false)
    (hmark : block = true ∨ mark ∉ text) :
    Spells ⟨mark, false, block⟩ run text text := by
  induction text generalizing run with
  | nil => exact Spells.nil run
  | cons c rest ih =>
      have hcontrol' : ∀ c ∈ rest, isControl c = false :=
        fun c hc => hcontrol c (List.mem_cons_of_mem _ hc)
      have hline' := hline.imp_right List.not_mem_of_not_mem_cons
      have hmark' := hmark.imp_right List.not_mem_of_not_mem_cons
      by_cases hc : c = mark
      · subst hc
        have hblock : block = true := hmark.resolve_right (by simp)
        have hrun : run < 2 := by
          -- Two quotes right before this one would make three in a row.
          by_contra hge
          obtain ⟨k, rfl⟩ := Nat.exists_eq_add_of_le' (Nat.not_lt.mp hge)
          rw [← List.replicate_append_replicate, List.append_assoc] at hthree
          simpa [hasThree] using hasThree_of_append _ hthree
        refine Spells.mark hblock hrun (ih hcontrol' hline' ?_ hmark')
        rwa [List.replicate_succ', List.append_assoc]
      · refine Spells.plain hc (by simp) ?_ (ih hcontrol' hline' ?_ hmark')
        · rcases isPlain_of_not_isControl (hcontrol c List.mem_cons_self) with hplain | hfeed
          · exact Or.inl hplain
          · exact Or.inr ⟨hline.resolve_right (by simp [hfeed]), hfeed⟩
        · exact hasThree_of_cons (hasThree_of_append _ hthree)

/-! ### Forms

The choice looks at the text for what a form cannot hold: control characters, line feeds, quotes of
its own kind.  Each branch is taken for one of these reasons, and the reason is what the form needs
later.
-/

/-- Backslashes escape between double quotes.  Single quotes are chosen for a text that they
can hold as it is. -/
theorem formFor_cases (text : List Char) :
    (∃ block, formFor text = ⟨'"', true, block⟩) ∨
      ∃ block, formFor text = ⟨'\'', false, block⟩ ∧ (∀ c ∈ text, isControl c = false) ∧
        hasThree '\'' text = false ∧ (block = true ∨ '\'' ∉ text) := by
  have hcontrol : (!text.any isControl) = true → ∀ c ∈ text, isControl c = false := by
    intro h c hc
    simpa using List.any_eq_false.mp (by simpa using h) c hc
  unfold formFor
  dsimp only
  split_ifs with hbasic hliteral hblock hraw
  · exact Or.inl ⟨false, rfl⟩
  · simp only [Bool.and_eq_true] at hliteral
    have hmark : '\'' ∉ text := fun h => by simpa using List.all_eq_true.mp hliteral.2 _ h
    exact Or.inr ⟨false, rfl, hcontrol hliteral.1.1, hasThree_of_not_mem hmark, Or.inr hmark⟩
  · exact Or.inl ⟨true, rfl⟩
  · simp only [Bool.and_eq_true, Bool.not_eq_true'] at hraw
    exact Or.inr ⟨true, rfl, hcontrol (by simpa using hraw.1), hraw.2, Or.inl rfl⟩
  · exact Or.inl ⟨_, rfl⟩

/-- Only a block holds a line feed. -/
theorem formFor_line (text : List Char) : (formFor text).block = true ∨ '\n' ∉ text := by
  unfold formFor
  dsimp only
  split_ifs with hbasic hliteral
  · simp only [Bool.and_eq_true] at hbasic
    exact Or.inr fun hfeed => by simpa using List.all_eq_true.mp hbasic.1.2 _ hfeed
  · simp only [Bool.and_eq_true] at hliteral
    exact Or.inr fun hfeed => by simpa using List.all_eq_true.mp hliteral.1.2 _ hfeed
  · exact Or.inl rfl
  · exact Or.inl rfl
  · simp only [Bool.not_eq_true']
    by_cases hline : text.all (· ≠ '\n') = true
    · exact Or.inr fun hfeed => by simpa using List.all_eq_true.mp hline _ hfeed
    · exact Or.inl (by simpa using hline)

/-- The chosen form spells the text. -/
theorem formFor_spells (text : List Char) :
    Spells (formFor text) 0 (writeBody (formFor text) text) text := by
  have hline := formFor_line text
  rcases formFor_cases text with ⟨block, hform⟩ | ⟨block, hform, hcontrol, hthree, hmark⟩
  · rw [hform] at hline ⊢
    exact writeEscaped_spells hline (Nat.zero_le 2)
  · rw [hform] at hline ⊢
    exact raw_spells hcontrol hline hthree hmark

/-! ### Strings -/

section

variable {mark : Char} (hmark : mark = '"' ∨ mark = '\'') {written text rest : List Char}

include hmark

/-- A string on one line does not start with the three quotes of a block. -/
theorem anyString_line (h : Spells ⟨mark, mark = '"', false⟩ 0 written text)
    (hrest : rest.head? ≠ some mark) :
    anyString mark (written ++ mark :: rest) = .ok (text, rest) := by
  have hbody : lineString mark (written ++ mark :: rest) = .ok (text, rest) :=
    stringBody_spells hmark h hrest
  have hslash : mark ≠ '\\' := by rcases hmark with rfl | rfl <;> decide
  have hskip : ∀ c more, c ≠ mark →
      anyString mark (c :: more) = lineString mark (c :: more) := by
    intro c more hc
    cases more with
    | nil => rfl
    | cons d more => simp [anyString, hc]
  rw [← hbody]
  cases h with
  | nil =>
      cases rest with
      | nil => rfl
      | cons c more => simp [anyString, show c ≠ mark by simpa using hrest]
  | mark hblock => exact absurd hblock Bool.false_ne_true
  | plain hne => exact hskip _ _ hne
  | short => exact hskip _ _ hslash.symm
  | code => exact hskip _ _ hslash.symm

/-- What a text without line feeds is spelled by does not start with a line ending. -/
theorem newline?_spells {form : Form} (hform : form.mark = mark)
    (h : Spells form 0 written text) (hfeed : '\n' ∉ text) :
    newline? (written ++ (form.quotes ++ rest)) = none := by
  have hother : ∀ c more, c ≠ '\n' → c ≠ '\r' → newline? (c :: more) = none := by
    intro c more hfeed hreturn
    simp [newline?, hfeed, hreturn]
  have hplainMark : mark ≠ '\n' ∧ mark ≠ '\r' := by rcases hmark with rfl | rfl <;> decide
  subst hform
  cases h with
  | nil =>
      unfold Form.quotes
      split <;> exact hother _ _ hplainMark.1 hplainMark.2
  | mark => exact hother _ _ hplainMark.1 hplainMark.2
  | @plain _ c _ more hne _ hplain =>
      have hc : c ≠ '\n' := fun hc => hfeed (by simp [hc])
      have hreturn : c ≠ '\r' := by
        rintro rfl
        rcases hplain with hplain | ⟨-, hfeed⟩
        · exact absurd hplain (by decide)
        · exact absurd hfeed hc
      exact hother _ _ hc hreturn
  | short => rfl
  | code => rfl

/-- A block may start with a line ending of its own, and has to if its text has a line
feed. -/
theorem anyString_block (h : Spells ⟨mark, mark = '"', true⟩ 0 written text)
    (hrest : rest.head? ≠ some mark) {start : List Char}
    (hstart : start = ['\n'] ∨ start = [] ∧ '\n' ∉ text) :
    anyString mark (mark :: mark :: (start ++ (written ++ (mark :: mark :: mark :: rest)))) =
      .ok (text, rest) := by
  have hbody : stringBody ⟨mark, mark = '"', true⟩ .plain
      (written ++ (mark :: mark :: mark :: rest)) = .ok (text, rest) :=
    stringBody_spells hmark h hrest
  have hopen : (newline? (start ++ (written ++ (mark :: mark :: mark :: rest)))).getD
      (start ++ (written ++ (mark :: mark :: mark :: rest))) =
        written ++ (mark :: mark :: mark :: rest) := by
    rcases hstart with rfl | ⟨rfl, hfeed⟩
    · rfl
    · have hnone : newline? (written ++ (mark :: mark :: mark :: rest)) = none :=
        newline?_spells hmark rfl h hfeed
      rw [List.nil_append, hnone, Option.getD_none]
  rw [anyString, if_pos (by simp), blockString, hopen, hbody]

end

/-- A written string starts with a quote, and from behind that quote it is read back. -/
theorem anyString_writeString (text : List Char) :
    ∃ mark inner, (mark = '"' ∨ mark = '\'') ∧ writeString text = mark :: inner ∧
      ∀ rest : List Char, rest.head? ≠ some mark →
        anyString mark (inner ++ rest) = .ok (text, rest) := by
  have hspells := formFor_spells text
  have hline := formFor_line text
  obtain ⟨mark, block, hmark, hform⟩ : ∃ mark block, (mark = '"' ∨ mark = '\'') ∧
      formFor text = ⟨mark, mark = '"', block⟩ := by
    rcases formFor_cases text with ⟨block, hform⟩ | ⟨block, hform, -⟩
    · exact ⟨'"', block, Or.inl rfl, hform⟩
    · exact ⟨'\'', block, Or.inr rfl, hform⟩
  rw [hform] at hspells hline
  cases block with
  | false =>
      refine ⟨mark, writeBody ⟨mark, mark = '"', false⟩ text ++ [mark], hmark, ?_, ?_⟩
      · simp [writeString, hform, Form.quotes]
      · intro rest hrest
        rw [List.append_assoc]
        exact anyString_line hmark hspells hrest
  | true =>
      refine ⟨mark, mark :: mark :: ((if '\n' ∈ text then ['\n'] else []) ++
        (writeBody ⟨mark, mark = '"', true⟩ text ++ [mark, mark, mark])), hmark, ?_, ?_⟩
      · simp [writeString, hform, Form.quotes, List.replicate]
      · intro rest hrest
        have hstart : (if '\n' ∈ text then ['\n'] else []) = ['\n'] ∨
            (if '\n' ∈ text then ['\n'] else []) = [] ∧ '\n' ∉ text := by
          split
          · exact Or.inl rfl
          · exact Or.inr ⟨rfl, ‹_›⟩
        simpa using anyString_block hmark hspells hrest hstart

/-- **A written string is read back as a value**, whatever follows it, unless that is one
more quote. -/
theorem value_writeString (text rest : List Char)
    (hdouble : rest.head? ≠ some '"') (hsingle : rest.head? ≠ some '\'') :
    value (writeString text ++ rest) =
      .ok (.scalar ⟨writeString text ++ rest, rest⟩ (.text (String.ofList text)), rest) := by
  obtain ⟨mark, inner, hmark, hwritten, hread⟩ := anyString_writeString text
  rw [hwritten, List.cons_append]
  rcases hmark with rfl | rfl
  · have hstring := hread rest hdouble
    simp [value, valueWithin, nestingLimit, leaf, scalar, hstring, bind, Except.bind, pure,
      Except.pure]
  · have hstring := hread rest hsingle
    simp [value, valueWithin, nestingLimit, leaf, scalar, hstring, bind, Except.bind, pure,
      Except.pure]

/-- A written string starts with its quote. -/
theorem skipSpaces_writeString (text rest : List Char) :
    skipSpaces (writeString text ++ rest) = writeString text ++ rest := by
  obtain ⟨mark, inner, hmark, hwritten, -⟩ := anyString_writeString text
  rw [hwritten]
  rcases hmark with rfl | rfl <;> rfl

end Salutation.Toml
