/-
What the reader makes of a string.

`Spells` is a grammar: which characters may stand between the quotes of a form, and what
they stand for.  It counts the unescaped quotes in a row, because a block may hold its own
quote as long as the closing quotes can still be told apart.  The reader does not count: at
each quote it looks ahead for three in a row.  The two agree because quotes that stand in a
row inside a block are at most two, so three or more in a row end it, and those before the
last three belong to the text.

The law for the reader, `stringBody_spells`, is an induction over the grammar.
-/
import Mathlib.Data.List.TakeWhile
import Salutation.Proofs.Text.Hex
import Salutation.Proofs.Toml.Refusal
import Salutation.Toml.Quoted

namespace Salutation.Toml

/-- What stands between the quotes of a form, and the text it stands for, where `run`
unescaped quotes stand right before it. -/
inductive Spells (form : Form) : Nat → List Char → List Char → Prop where
  | nil (run : Nat) : Spells form run [] []
  /-- A block may hold its own quote, but never three in a row. -/
  | mark {run : Nat} {written text : List Char} (hblock : form.block = true) (hrun : run < 2)
      (h : Spells form (run + 1) written text) :
      Spells form run (form.mark :: written) (form.mark :: text)
  /-- A character that stands for itself. -/
  | plain {run : Nat} {c : Char} {written text : List Char} (hmark : c ≠ form.mark)
      (hslash : form.escapes = true → c ≠ '\\')
      (hplain : isPlain c = true ∨ form.block = true ∧ c = '\n')
      (h : Spells form 0 written text) : Spells form run (c :: written) (c :: text)
  /-- An escape of one letter. -/
  | short {run : Nat} {letter c : Char} {written text : List Char}
      (hescapes : form.escapes = true) (hletter : shortEscape? letter = some c)
      (h : Spells form 0 written text) :
      Spells form run ('\\' :: letter :: written) (c :: text)
  /-- An escape by the number of an ASCII character. -/
  | code {run n : Nat} {written text : List Char} (hescapes : form.escapes = true)
      (hn : n < 0x80) (h : Spells form 0 written text) :
      Spells form run ('\\' :: 'u' :: '0' :: '0' ::
        Text.upperHex (n / 16) :: Text.upperHex (n % 16) :: written) (Char.ofNat n :: text)

/-! ### The closing quotes -/

/-- Quotes in a row close a block if they are at least three. -/
theorem closing?_replicate {form : Form} (hblock : form.block = true) {n : Nat} (hn : n ≤ 5)
    {rest : List Char} (hrest : rest.head? ≠ some form.mark) :
    closing? form (List.replicate n form.mark ++ rest) =
      if n < 3 then none else some (List.replicate (n - 3) form.mark, rest) := by
  have hrun : ((List.replicate n form.mark ++ rest).take 5).takeWhile (· = form.mark) =
      List.replicate n form.mark := by
    have hstop : (rest.take (5 - n)).takeWhile (· = form.mark) = [] := by
      cases rest with
      | nil => simp
      | cons c more =>
          have hc : c ≠ form.mark := by simpa using hrest
          cases 5 - n <;> simp [hc]
    rw [List.take_append, List.take_of_length_le (by simpa using hn), List.length_replicate,
      List.takeWhile_append_of_pos (by simp), hstop, List.append_nil]
  simp only [closing?, hblock, if_true, hrun, List.length_replicate, List.drop_replicate]
  split
  · rfl
  · rw [List.drop_left' List.length_replicate]

/-- What does not start with a quote closes nothing. -/
theorem closing?_of_ne {form : Form} {c : Char} (hc : c ≠ form.mark) (rest : List Char) :
    closing? form (c :: rest) = none := by
  simp [closing?, hc]

/-- The closing quotes are found where they start. -/
theorem closing?_quotes {form : Form} {rest : List Char}
    (hrest : rest.head? ≠ some form.mark) :
    closing? form (form.quotes ++ rest) = some ([], rest) := by
  by_cases hblock : form.block = true
  · have hthree := closing?_replicate hblock (n := 3) (by decide) hrest
    simpa [Form.quotes, hblock] using hthree
  · simp [Form.quotes, closing?, hblock]

/-! ### Quotes inside a block -/

/-- What is spelled is a few quotes, and then nothing or something else than a quote. -/
theorem Spells.marks {form : Form} (hslash : form.mark ≠ '\\') {run : Nat}
    {written text : List Char} (h : Spells form run written text) :
    ∃ n, (n = 0 ∨ run + n ≤ 2) ∧
      (written = List.replicate n form.mark ∧ text = List.replicate n form.mark ∨
        ∃ c more, c ≠ form.mark ∧ written = List.replicate n form.mark ++ c :: more) := by
  induction h with
  | nil run => exact ⟨0, Or.inl rfl, Or.inl ⟨rfl, rfl⟩⟩
  | mark hblock hrun h ih =>
      obtain ⟨n, hn, hcases⟩ := ih
      refine ⟨n + 1, Or.inr (by omega), ?_⟩
      rcases hcases with ⟨hwritten, htext⟩ | ⟨c, more, hc, hwritten⟩
      · exact Or.inl ⟨by rw [hwritten, List.replicate_succ], by rw [htext, List.replicate_succ]⟩
      · exact Or.inr ⟨c, more, hc, by rw [hwritten, List.replicate_succ, List.cons_append]⟩
  | plain hmark => exact ⟨0, Or.inl rfl, Or.inr ⟨_, _, hmark, rfl⟩⟩
  | short => exact ⟨0, Or.inl rfl, Or.inr ⟨_, _, hslash.symm, rfl⟩⟩
  | code => exact ⟨0, Or.inl rfl, Or.inr ⟨_, _, hslash.symm, rfl⟩⟩

/-! ### What a character leads to

The modes of the reader are taken apart here once.  A character either begins the quotes that close
the string, or is passed over: then it adds a character to the text or none, and settles the mode in
which the next one is read.  What holds of every string is proved along `Passes`, with a case only
where it says something about a character.
-/

/-- Whether the end of a string is looked for at a character: not while a blank is swallowed, and
not at a carriage return inside a block. -/
def Mode.looksForEnd (form : Form) (c : Char) : Mode → Bool
  | .plain => !(form.block && c = '\r')
  | .swallowing => !(isSpace c || c = '\n') && !(form.block && c = '\r')
  | _ => false

/-- How a character with `more` behind it is passed over: in which mode it is read, what it adds to
the text, and in which mode the reader goes on. -/
inductive Passes (form : Form) (c : Char) (more : List Char) :
    Mode → Option Char → Mode → Prop where
  | letter {d : Char} (h : shortEscape? c = some d) : Passes form c more .escaped (some d) .plain
  | number {digits : Nat} (h : shortEscape? c = none)
      (hc : c = 'u' ∧ digits = 4 ∨ c = 'U' ∧ digits = 8) :
      Passes form c more .escaped none (.codePoint digits 0)
  /-- A backslash at the end of a line of a block; blanks may stand between the two. -/
  | lineEnd {next : Mode} (h : shortEscape? c = none) (hc : c ≠ 'u' ∧ c ≠ 'U')
      (hblock : form.block = true) (hline : (newline? (skipSpaces (c :: more))).isSome = true)
      (hnext : next = if c = '\r' then .carriageReturn true else .swallowing) :
      Passes form c more .escaped none next
  | digit {needed value digit : Nat} (h : Text.hexValue? c = some digit) (hneeded : ¬needed ≤ 1) :
      Passes form c more (.codePoint needed value) none
        (.codePoint (needed - 1) (value * 16 + digit))
  | lastDigit {needed value digit : Nat} {d : Char} (h : Text.hexValue? c = some digit)
      (hneeded : needed ≤ 1) (hd : scalarValue? (value * 16 + digit) = some d) :
      Passes form c more (.codePoint needed value) (some d) .plain
  | feed (hc : c = '\n') : Passes form c more (.carriageReturn false) (some '\n') .plain
  | swallowedFeed (hc : c = '\n') : Passes form c more (.carriageReturn true) none .swallowing
  | blank (h : isSpace c = true ∨ c = '\n') : Passes form c more .swallowing none .swallowing
  | carriageReturn (hblock : form.block = true) (hc : c = '\r') :
      Passes form c more .plain none (.carriageReturn false)
  | swallowedReturn (hblock : form.block = true) (hc : c = '\r') :
      Passes form c more .swallowing none (.carriageReturn true)
  | slash {mode : Mode} (hlooks : mode.looksForEnd form c = true)
      (hopen : closing? form (c :: more) = none) (hescapes : form.escapes = true) (hc : c = '\\') :
      Passes form c more mode none .escaped
  | itself {mode : Mode} (hlooks : mode.looksForEnd form c = true)
      (hopen : closing? form (c :: more) = none) (hslash : ¬(form.escapes = true ∧ c = '\\'))
      (hplain : isPlain c = true ∨ form.block = true ∧ c = '\n') :
      Passes form c more mode (some c) .plain

/-- Where the end of a string is looked for, the character either begins it, or announces an escape,
or stands for itself. -/
theorem stringBody_of_looksForEnd {form : Form} {mode : Mode} {c : Char} {more : List Char}
    (h : mode.looksForEnd form c = true) :
    stringBody form mode (c :: more) =
      match closing? form (c :: more) with
      | some (quotes, after) => .ok (quotes, after)
      | none =>
        if form.escapes && c = '\\' then stringBody form .escaped more
        else if isPlain c || (form.block && c = '\n') then push c (stringBody form .plain more)
        else refuse (c :: more) .text := by
  cases mode with
  | plain =>
      have hreturn : (form.block && c = '\r') = false := by rwa [← Bool.not_eq_true']
      conv => lhs; unfold stringBody
      rcases closing? form (c :: more) with _ | ⟨quotes, after⟩ <;>
        simp only [hreturn, reduceCtorEq, decide_false, Bool.false_and, Bool.false_eq_true,
          if_false]
  | swallowing =>
      rw [Mode.looksForEnd, Bool.and_eq_true, Bool.not_eq_true', Bool.not_eq_true'] at h
      conv => lhs; unfold stringBody
      rcases closing? form (c :: more) with _ | ⟨quotes, after⟩ <;>
        simp only [h.1, h.2, decide_true, Bool.true_and, Bool.false_eq_true, if_false]
  | escaped | codePoint | carriageReturn => cases h

/-- What is passed over may be read again in front of what follows it. -/
theorem Passes.stringBody_eq {form : Form} {mode next : Mode} {c : Char}
    {more others rest : List Char} {added : Option Char} (h : Passes form c more mode added next)
    (hmore : stringBody form next more = .ok (others, rest)) :
    stringBody form mode (c :: more) = .ok (added.toList ++ others, rest) := by
  cases h with
  | letter h => simp [stringBody, h, hmore]
  | number h hc => rcases hc with ⟨rfl, rfl⟩ | ⟨rfl, rfl⟩ <;> simp [stringBody, h, hmore]
  | lineEnd h hc hblock hline hnext =>
      have hbreak : (form.block && (newline? (skipSpaces (c :: more))).isSome) = true := by
        rw [hblock, hline, Bool.and_self]
      conv => lhs; unfold stringBody
      simp only [h, if_neg hc.1, if_neg hc.2, if_pos hbreak]
      rw [hnext] at hmore
      split_ifs at hmore ⊢ <;> exact hmore
  | digit h hneeded => simp [stringBody, h, hneeded, hmore]
  | lastDigit h hneeded hd => simp [stringBody, h, hneeded, hd, hmore]
  | feed hc => simp [stringBody, hc, hmore]
  | swallowedFeed hc => simp [stringBody, hc, hmore]
  | blank h => simp [stringBody, h, hmore]
  | carriageReturn hblock hc => simp [stringBody, hblock, hc, hmore]
  | swallowedReturn hblock hc => simp [stringBody, hblock, hc, hmore, isSpace]
  | slash hlooks hopen hescapes hc =>
      rw [stringBody_of_looksForEnd hlooks, hopen]
      simp [hescapes, hc, hmore]
  | itself hlooks hopen hslash hplain =>
      rw [stringBody_of_looksForEnd hlooks, hopen]
      simp [hslash, hplain, hmore]

/-- A character is passed over, and the string is read on behind it. -/
def ReadsOn (form : Form) (mode : Mode) (c : Char) (more text rest : List Char) : Prop :=
  ∃ added next others, Passes form c more mode added next ∧
    stringBody form next more = .ok (others, rest) ∧ text = added.toList ++ others

theorem Passes.readsOn {form : Form} {mode next : Mode} {c : Char} {more text rest : List Char}
    (h : Passes form c more mode none next) (hmore : stringBody form next more = .ok (text, rest)) :
    ReadsOn form mode c more text rest :=
  ⟨none, next, text, h, hmore, rfl⟩

theorem Passes.readsOn_push {form : Form} {mode next : Mode} {c d : Char}
    {more text rest : List Char} (h : Passes form c more mode (some d) next)
    (hmore : push d (stringBody form next more) = .ok (text, rest)) :
    ReadsOn form mode c more text rest := by
  obtain ⟨others, hothers, htext⟩ := push_eq_ok hmore
  exact ⟨some d, next, others, h, hothers, htext⟩

/-- Where the end of a string is looked for, it ends, or the character is passed over. -/
theorem closes_or_readsOn {form : Form} {mode : Mode} {c : Char} {more text rest : List Char}
    (hlooks : mode.looksForEnd form c = true)
    (h : stringBody form mode (c :: more) = .ok (text, rest)) :
    closing? form (c :: more) = some (text, rest) ∨ ReadsOn form mode c more text rest := by
  rw [stringBody_of_looksForEnd hlooks] at h
  cases hopen : closing? form (c :: more) with
  | some ending =>
      rw [hopen] at h
      cases h
      exact Or.inl rfl
  | none =>
      rw [hopen] at h
      dsimp only at h
      split_ifs at h with hslash hplain
      · rw [Bool.and_eq_true, decide_eq_true_eq] at hslash
        exact Or.inr ((Passes.slash hlooks hopen hslash.1 hslash.2).readsOn h)
      · have hself : Passes form c more mode (some c) .plain :=
          .itself hlooks hopen (by simpa using hslash) (by simpa using hplain)
        exact Or.inr (hself.readsOn_push h)
      · cases h

/-- **At each character a string ends, or the character is passed over** and the string is read on
behind it. -/
theorem stringBody_cases {form : Form} {mode : Mode} {c : Char} {more text rest : List Char}
    (h : stringBody form mode (c :: more) = .ok (text, rest)) :
    mode.looksForEnd form c = true ∧ closing? form (c :: more) = some (text, rest) ∨
      ReadsOn form mode c more text rest := by
  by_cases hlooks : mode.looksForEnd form c = true
  · exact (closes_or_readsOn hlooks h).imp_left (And.intro hlooks)
  refine Or.inr ?_
  cases mode with
  | plain =>
      have hreturn : form.block = true ∧ c = '\r' := by simpa [Mode.looksForEnd] using hlooks
      refine (Passes.carriageReturn hreturn.1 hreturn.2).readsOn ?_
      simpa [stringBody, hreturn] using h
  | swallowing =>
      by_cases hblank : isSpace c = true ∨ c = '\n'
      · refine (Passes.blank hblank).readsOn ?_
        simpa [stringBody, hblank] using h
      · have hreturn : form.block = true ∧ c = '\r' := by
          rw [not_or] at hblank
          simpa [Mode.looksForEnd, hblank] using hlooks
        refine (Passes.swallowedReturn hreturn.1 hreturn.2).readsOn ?_
        simpa [stringBody, hreturn, isSpace] using h
  | carriageReturn swallow =>
      rw [stringBody] at h
      split_ifs at h with hfeed hswallow
      · subst hswallow
        exact (Passes.swallowedFeed hfeed).readsOn h
      · cases swallow with
        | false => exact (Passes.feed hfeed).readsOn_push h
        | true => exact absurd rfl hswallow
      · cases h
  | codePoint needed value =>
      rw [stringBody] at h
      dsimp only at h
      split at h
      case h_1 => cases h
      case h_2 digit hdigit =>
        split_ifs at h with hneeded
        · split at h
          case h_1 hvalue => exact (Passes.lastDigit hdigit hneeded hvalue).readsOn_push h
          case h_2 => cases h
        · exact (Passes.digit hdigit hneeded).readsOn h
  | escaped =>
      rw [stringBody] at h
      split at h
      case h_1 hletter => exact (Passes.letter hletter).readsOn_push h
      case h_2 hletter =>
        split_ifs at h with hshort hlong hline hreturn
        · exact (Passes.number hletter (Or.inl ⟨hshort, rfl⟩)).readsOn h
        · exact (Passes.number hletter (Or.inr ⟨hlong, rfl⟩)).readsOn h
        · rw [Bool.and_eq_true] at hline
          refine (Passes.lineEnd hletter ⟨hshort, hlong⟩ hline.1 hline.2 ?_).readsOn h
          rw [if_pos hreturn]
        · rw [Bool.and_eq_true] at hline
          refine (Passes.lineEnd hletter ⟨hshort, hlong⟩ hline.1 hline.2 ?_).readsOn h
          rw [if_neg hreturn]
        · cases h

/-! ### One character -/

/-- Closing quotes end a string. -/
theorem stringBody_closing {form : Form} {c : Char} {rest text after : List Char}
    (hc : isPlain c = true) (h : closing? form (c :: rest) = some (text, after)) :
    stringBody form .plain (c :: rest) = .ok (text, after) := by
  have hreturn : c ≠ '\r' := by
    rintro rfl
    exact absurd hc (by decide)
  simp [stringBody, hreturn, h]

/-- A character that stands for itself is read as it is. -/
theorem stringBody_plain {form : Form} {c : Char} {rest : List Char}
    (hclosing : closing? form (c :: rest) = none)
    (hslash : form.escapes = true → c ≠ '\\')
    (hplain : isPlain c = true ∨ form.block = true ∧ c = '\n') :
    stringBody form .plain (c :: rest) = push c (stringBody form .plain rest) := by
  have hreturn : c ≠ '\r' := by
    rintro rfl
    rcases hplain with hplain | ⟨-, hfeed⟩
    · exact absurd hplain (by decide)
    · exact absurd hfeed (by decide)
  have hescape : ¬(form.escapes = true ∧ c = '\\') := fun h => hslash h.1 h.2
  simp [stringBody, hreturn, hclosing, hescape, hplain]

/-- A backslash announces an escape. -/
theorem stringBody_slash {form : Form} (hescapes : form.escapes = true)
    (hmark : form.mark ≠ '\\') (rest : List Char) :
    stringBody form .plain ('\\' :: rest) = stringBody form .escaped rest := by
  have hclosing : closing? form ('\\' :: rest) = none := closing?_of_ne hmark.symm rest
  simp [stringBody, hclosing, hescapes]

/-- Four digits spell an ASCII character. -/
theorem stringBody_code (form : Form) {n : Nat} (hn : n < 0x80) (rest : List Char) :
    stringBody form (.codePoint 4 0)
      ('0' :: '0' :: Text.upperHex (n / 16) :: Text.upperHex (n % 16) :: rest) =
        push (Char.ofNat n) (stringBody form .plain rest) := by
  have hzero : Text.hexValue? '0' = some 0 := by decide
  have hhigh : Text.hexValue? (Text.upperHex (n / 16)) = some (n / 16) :=
    Text.hexValue?_upperHex (by omega)
  have hlow : Text.hexValue? (Text.upperHex (n % 16)) = some (n % 16) :=
    Text.hexValue?_upperHex (by omega)
  have hvalid : n.isValidChar := Or.inl (by omega)
  simp [stringBody, hzero, hhigh, hlow, Nat.div_add_mod', scalarValue?, hvalid]

/-! ### Strings -/

section

variable {form : Form} (hform : form.mark = '"' ∨ form.mark = '\'')

include hform

/-- **What is spelled between the quotes of a form is read as the text it stands for.** -/
theorem stringBody_spells {run : Nat} {written text rest : List Char}
    (h : Spells form run written text) (hrest : rest.head? ≠ some form.mark) :
    stringBody form .plain (written ++ (form.quotes ++ rest)) = .ok (text, rest) := by
  have hslash : form.mark ≠ '\\' := by rcases hform with hmark | hmark <;> rw [hmark] <;> decide
  have hplainMark : isPlain form.mark = true := by
    rcases hform with hmark | hmark <;> rw [hmark] <;> decide
  induction h with
  | nil run =>
      obtain ⟨more, hquotes⟩ : ∃ more, form.quotes = form.mark :: more := by
        unfold Form.quotes
        split <;> exact ⟨_, rfl⟩
      have hclosing := closing?_quotes hrest
      rw [hquotes] at hclosing
      rw [List.nil_append, hquotes]
      exact stringBody_closing hplainMark hclosing
  | @mark run written text hblock hrun h ih =>
      obtain ⟨n, hn, ⟨hwritten, htext⟩ | ⟨c, more, hc, hwritten⟩⟩ := h.marks hslash
      · -- Nothing but quotes is left: they end the string together with the closing ones.
        have hclosing := closing?_replicate hblock (n := n + 1 + 3) (by omega) hrest
        have hshape : form.mark :: written ++ (form.quotes ++ rest) =
            List.replicate (n + 1 + 3) form.mark ++ rest := by
          rw [hwritten, ← List.replicate_append_replicate, List.replicate_succ]
          simp [Form.quotes, hblock]
        rw [← hshape, if_neg (by omega)] at hclosing
        rw [htext]
        exact stringBody_closing hplainMark hclosing
      · have hshape : form.mark :: written ++ (form.quotes ++ rest) =
            List.replicate (n + 1) form.mark ++ (c :: more ++ (form.quotes ++ rest)) := by
          rw [hwritten, List.replicate_succ]
          simp
        have hhead : (c :: more ++ (form.quotes ++ rest)).head? ≠ some form.mark := by
          simpa using hc
        have hclosing := closing?_replicate hblock (n := n + 1) (by omega) hhead
        rw [← hshape, if_pos (by omega)] at hclosing
        rw [List.cons_append] at hclosing ⊢
        rw [stringBody_plain hclosing (fun _ => hslash) (Or.inl hplainMark), ih, push_ok]
  | plain hmark hne hplain h ih =>
      rw [List.cons_append, stringBody_plain (closing?_of_ne hmark _) hne hplain, ih, push_ok]
  | @short run letter c written text hescapes hletter h ih =>
      rw [List.cons_append, stringBody_slash hescapes hslash, List.cons_append, ← push_ok, ← ih]
      simp [stringBody, hletter]
  | @code run n written text hescapes hn h ih =>
      rw [List.cons_append, stringBody_slash hescapes hslash, ← push_ok, ← ih,
        ← stringBody_code form hn]
      rfl

end

end Salutation.Toml
