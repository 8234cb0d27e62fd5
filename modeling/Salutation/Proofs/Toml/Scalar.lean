/-
Values end where they stop.

A string, an integer or a truth value that makes up a whole text is read in the same way at
the start of a longer one, if what follows stops a value.  So a value can be known by itself,
apart from the line on which it stands.

For strings this is an induction on the characters.  Nothing behind a string can open or
close it, because three quotes in a row that close a block are looked for among the next
five characters and what follows is no quote.
-/
import Salutation.Proofs.Toml.Number
import Salutation.Proofs.Toml.Quoted
import Salutation.Toml.Value

namespace Salutation.Toml

/-! ### Strings -/

section

variable {form : Form} {written rest : List Char} (hrest : rest.head? ≠ some form.mark)

include hrest

/-- What follows a text cannot add to the quotes at its start. -/
theorem takeWhile_mark_append (n : Nat) :
    ((written ++ rest).take n).takeWhile (· = form.mark) =
      (written.take n).takeWhile (· = form.mark) := by
  have hstop : (rest.take (n - written.length)).takeWhile (· = form.mark) = [] := by
    cases rest with
    | nil => simp
    | cons c more =>
        have hc : c ≠ form.mark := by simpa using hrest
        cases n - written.length <;> simp [hc]
  rw [List.take_append, List.takeWhile_append, hstop, List.append_nil]
  split
  case isTrue hall => exact ((List.takeWhile_prefix _).eq_of_length hall).symm
  case isFalse => rfl

theorem closing?_append :
    closing? form (written ++ rest) =
      (closing? form written).map fun (quotes, after) => (quotes, after ++ rest) := by
  unfold closing?
  dsimp only
  rw [takeWhile_mark_append hrest]
  by_cases hblock : form.block = true
  · have hlength : ((written.take 5).takeWhile (· = form.mark)).length ≤ written.length :=
      (List.takeWhile_prefix _).length_le.trans (List.length_take_le' 5 written)
    rw [if_pos hblock, if_pos hblock, List.drop_append_of_le_length hlength]
    split <;> rfl
  · rw [if_neg hblock, if_neg hblock]
    cases written with
    | cons c more =>
        dsimp only [List.cons_append]
        split <;> rfl
    | nil =>
        cases rest with
        | nil => rfl
        | cons c more =>
            have hc : c ≠ form.mark := by simpa using hrest
            simp [hc]

omit hrest in
theorem newline?_append {text after : List Char} (h : newline? text = some after)
    (rest : List Char) : newline? (text ++ rest) = some (after ++ rest) := by
  rcases newline?_cases h with rfl | rfl
  · rfl
  · rfl

omit hrest in
/-- A line ending behind spaces is there whatever follows it. -/
theorem endsLine_append (h : (newline? (skipSpaces written)).isSome = true) :
    (newline? (skipSpaces (written ++ rest))).isSome = true := by
  obtain ⟨after, hafter⟩ := Option.isSome_iff_exists.mp h
  have hskip : skipSpaces (written ++ rest) = skipSpaces written ++ rest := by
    unfold skipSpaces at hafter ⊢
    rw [List.dropWhile_append, if_neg]
    intro hempty
    rw [List.isEmpty_iff.mp hempty] at hafter
    cases hafter
  rw [hskip, newline?_append hafter, Option.isSome_some]

/-- What is passed over in a text is passed over in a longer one. -/
theorem Passes.append {c : Char} {mode next : Mode} {added : Option Char}
    (h : Passes form c written mode added next) :
    Passes form c (written ++ rest) mode added next := by
  have hopens : closing? form (c :: written) = none →
      closing? form (c :: (written ++ rest)) = none := by
    intro hopen
    rw [← List.cons_append, closing?_append hrest, hopen]
    rfl
  cases h with
  | letter h => exact .letter h
  | number h hc => exact .number h hc
  | lineEnd h hc hblock hline hnext =>
      have hlonger : (newline? (skipSpaces (c :: written ++ rest))).isSome = true :=
        endsLine_append hline
      exact .lineEnd h hc hblock hlonger hnext
  | digit h hneeded => exact .digit h hneeded
  | lastDigit h hneeded hd => exact .lastDigit h hneeded hd
  | feed hc => exact .feed hc
  | swallowedFeed hc => exact .swallowedFeed hc
  | blank h => exact .blank h
  | carriageReturn hblock hc => exact .carriageReturn hblock hc
  | swallowedReturn hblock hc => exact .swallowedReturn hblock hc
  | slash hlooks hopen hescapes hc => exact .slash hlooks (hopens hopen) hescapes hc
  | itself hlooks hopen hslash hplain => exact .itself hlooks (hopens hopen) hslash hplain

/-- A string ends where its closing quotes do. -/
theorem stringBody_append {mode : Mode} {text left : List Char}
    (h : stringBody form mode written = .ok (text, left)) :
    stringBody form mode (written ++ rest) = .ok (text, left ++ rest) := by
  induction written generalizing mode text with
  | nil => cases mode <;> cases h
  | cons c more ih =>
      rcases stringBody_cases h with ⟨hlooks, hclosing⟩ | ⟨_, _, _, hpasses, hmore, rfl⟩
      · have hends : closing? form (c :: (more ++ rest)) = some (text, left ++ rest) := by
          rw [← List.cons_append, closing?_append hrest, hclosing]
          rfl
        rw [List.cons_append, stringBody_of_looksForEnd hlooks, hends]
      · exact (hpasses.append hrest).stringBody_eq (ih hmore)

end

section

variable {mark : Char} {written rest text left : List Char} (hrest : rest.head? ≠ some mark)

include hrest

theorem lineString_append (h : lineString mark written = .ok (text, left)) :
    lineString mark (written ++ rest) = .ok (text, left ++ rest) :=
  stringBody_append hrest h

theorem blockString_append (h : blockString mark written = .ok (text, left)) :
    blockString mark (written ++ rest) = .ok (text, left ++ rest) := by
  have hopen : (newline? (written ++ rest)).getD (written ++ rest) =
      (newline? written).getD written ++ rest := by
    cases hline : newline? written with
    | some after => rw [newline?_append hline, Option.getD_some, Option.getD_some]
    | none =>
        -- What is no line ending by itself becomes one only if the string has no end.
        have hnone : newline? (written ++ rest) = none := by
          match written, hline, h with
          | [], _, h => cases h
          | [c], hline, h =>
              have hfeed : c ≠ '\n' := by
                rintro rfl
                cases hline
              by_cases hreturn : c = '\r'
              · subst hreturn
                cases h
              · simp [newline?, hfeed, hreturn]
          | c :: d :: more, hline, _ =>
              unfold newline? at hline
              split at hline
              · cases hline
              · cases hline
              case h_3 hfeed hpair =>
                unfold newline?
                split
                case h_1 hcons =>
                  cases hcons
                  exact absurd rfl (hfeed _)
                case h_2 hcons =>
                  cases hcons
                  exact absurd rfl (hpair _)
                case h_3 => rfl
        rw [hnone, Option.getD_none, Option.getD_none]
  unfold blockString at h ⊢
  rw [hopen]
  exact stringBody_append hrest h

/-- A string of any form ends where it stops. -/
theorem anyString_append (h : anyString mark written = .ok (text, left)) :
    anyString mark (written ++ rest) = .ok (text, left ++ rest) := by
  match written, h with
  | [], h => cases h
  | [a], h =>
      have hline : lineString mark (a :: rest) = .ok (text, left ++ rest) :=
        lineString_append hrest h
      cases rest with
      | nil => exact hline
      | cons b more =>
          have hb : b ≠ mark := by simpa using hrest
          simpa [anyString, hb] using hline
  | a :: b :: more, h =>
      unfold anyString at h ⊢
      dsimp only [List.cons_append] at h ⊢
      split_ifs at h ⊢
      · exact blockString_append hrest h
      · exact lineString_append hrest h

end

/-! ### Values -/

/-- A text, an integer or a truth value. -/
def Scalar.isSimple : Scalar → Bool
  | .text _ | .integer _ | .truth _ => true
  | .number _ | .moment _ => false

/-- Behind no letter of a truth value there is a string, a date, a time or a number. -/
theorem scalar_cons {c : Char} (more : List Char) (ht : c ≠ 't') (hf : c ≠ 'f') :
    scalar (c :: more) =
      if c = '"' || c = '\'' then (do
        let (s, after) ← anyString c more
        return (.text (String.ofList s), after))
      else (do
        match ← moment? (c :: more) with
        | some result => return result
        | none => number (c :: more)) := by
  unfold scalar
  split
  case h_1 hcons =>
    cases hcons
    exact absurd rfl ht
  case h_2 hcons =>
    cases hcons
    exact absurd rfl hf
  case h_3 hcons =>
    cases hcons
    rfl
  case h_4 hcons => cases hcons

theorem moment?_not_simple {text left : List Char} {value : Scalar}
    (h : moment? text = .ok (some (value, left))) : value.isSimple = false := by
  obtain ⟨date?, -, h⟩ := bind_eq_ok.mp h
  cases date? with
  | none =>
      obtain ⟨stop?, -, h⟩ := bind_eq_ok.mp h
      cases stop? <;> cases h
      rfl
  | some left =>
      obtain ⟨stop?, -, h⟩ := bind_eq_ok.mp h
      cases stop? <;> cases h
      rfl

theorem number_simple {text left : List Char} {value : Scalar}
    (h : number text = .ok (value, left)) (hsimple : value.isSimple = true) :
    ∃ n, value = .integer n := by
  obtain ⟨quantity?, -, h⟩ := bind_eq_ok.mp h
  cases quantity? with
  | some =>
      cases h
      cases hsimple
  | none =>
      obtain ⟨⟨n, after⟩, -, h⟩ := bind_eq_ok.mp h
      cases h
      exact ⟨n, rfl⟩

/-- An integer starts neither like another value nor with a space. -/
theorem integer_head {c : Char} {more left : List Char} {n : Int}
    (h : integer (c :: more) = .ok (n, left)) : c ∉ ['t', 'f', '"', '\'', ' ', '\t'] := by
  obtain ⟨ds, after, hwhole⟩ := wholePart?_of_integer h
  intro hmem
  simp only [List.mem_cons, List.not_mem_nil, or_false] at hmem
  rcases hmem with rfl | rfl | rfl | rfl | rfl | rfl <;> cases hwhole

/-- A simple value is a truth value, a string or an integer. -/
theorem scalar_cases {written left : List Char} {content : Scalar}
    (h : scalar written = .ok (content, left)) (hsimple : content.isSimple = true) :
    (∃ b, content = .truth b ∧ (written = 't' :: 'r' :: 'u' :: 'e' :: left ∧ b = true ∨
        written = 'f' :: 'a' :: 'l' :: 's' :: 'e' :: left ∧ b = false)) ∨
      (∃ c more s, written = c :: more ∧ (c = '"' ∨ c = '\'') ∧
        anyString c more = .ok (s, left) ∧ content = .text (String.ofList s)) ∨
      (∃ n, content = .integer n ∧ moment? written = .ok none ∧
        number written = .ok (.integer n, left)) := by
  unfold scalar at h
  split at h
  case h_1 =>
    cases h
    exact Or.inl ⟨true, rfl, Or.inl ⟨rfl, rfl⟩⟩
  case h_2 =>
    cases h
    exact Or.inl ⟨false, rfl, Or.inr ⟨rfl, rfl⟩⟩
  case h_3 c more htrue hfalse =>
    split at h
    case isTrue hquote =>
      obtain ⟨⟨s, after⟩, hstring, h⟩ := bind_eq_ok.mp h
      cases h
      exact Or.inr (Or.inl ⟨c, more, s, rfl, by simpa using hquote, hstring, rfl⟩)
    case isFalse hquote =>
      obtain ⟨moment, hmoment, h⟩ := bind_eq_ok.mp h
      cases moment with
      | some result =>
          cases h
          rw [moment?_not_simple hmoment] at hsimple
          cases hsimple
      | none =>
          obtain ⟨n, rfl⟩ := number_simple h hsimple
          exact Or.inr (Or.inr ⟨n, rfl, hmoment, h⟩)
  case h_4 => cases h

/-- A simple value does not start with a space. -/
theorem scalar_head {c : Char} {more left : List Char} {content : Scalar}
    (h : scalar (c :: more) = .ok (content, left)) (hsimple : content.isSimple = true) :
    isSpace c = false := by
  rcases scalar_cases h hsimple with ⟨b, -, ⟨hwritten, -⟩ | ⟨hwritten, -⟩⟩ |
    ⟨d, left, s, hwritten, hquote, -⟩ | ⟨n, -, -, hnumber⟩
  · cases hwritten
    rfl
  · cases hwritten
    rfl
  · cases hwritten
    rcases hquote with rfl | rfl <;> rfl
  · have hc := integer_head (number_eq_integer_iff.mp hnumber).2
    simp only [List.mem_cons, not_or] at hc
    simp [isSpace, hc]

/-- Only a bracket and a brace open values with parts. -/
theorem value_cons {c : Char} (more : List Char) (hbracket : c ≠ '[') (hbrace : c ≠ '\x7b') :
    value (c :: more) = leaf (c :: more) := by
  unfold value nestingLimit valueWithin
  split
  case h_1 hcons =>
    cases hcons
    exact absurd rfl hbracket
  case h_2 hcons =>
    cases hcons
    exact absurd rfl hbrace
  case h_3 => rfl

/-- A value without parts is one that stands for itself. -/
theorem scalar_of_value {text left : List Char} {span : Span} {content : Scalar}
    (h : value text = .ok (.scalar span content, left)) :
    scalar text = .ok (content, left) ∧ text.head? ≠ some '[' ∧ text.head? ≠ some '\x7b' := by
  unfold value nestingLimit valueWithin at h
  split at h
  case h_1 =>
    obtain ⟨_, -, h⟩ := bind_eq_ok.mp h
    cases h
  case h_2 =>
    obtain ⟨⟨members, stop⟩, -, h⟩ := bind_eq_ok.mp h
    obtain ⟨table, -, h⟩ := bind_eq_ok.mp h
    split at h <;> cases h
  case h_3 hbracket hbrace =>
    obtain ⟨⟨found, after⟩, hscalar, h⟩ := bind_eq_ok.mp h
    cases h
    refine ⟨hscalar, fun hhead => ?_, fun hhead => ?_⟩
    · obtain ⟨more, rfl⟩ := List.head?_eq_some_iff.mp hhead
      exact hbracket more rfl
    · obtain ⟨more, rfl⟩ := List.head?_eq_some_iff.mp hhead
      exact hbrace more rfl

section

variable {written rest left : List Char} {content : Scalar} (hrest : StopsValue rest)
  (hsimple : content.isSimple = true)

include hrest hsimple

/-- What stands for itself ends where it stops. -/
theorem scalar_append (h : scalar written = .ok (content, left)) :
    scalar (written ++ rest) = .ok (content, left ++ rest) := by
  rcases scalar_cases h hsimple with ⟨b, rfl, ⟨rfl, rfl⟩ | ⟨rfl, rfl⟩⟩ |
    ⟨c, more, s, rfl, hc, hstring, rfl⟩ | ⟨n, rfl, hmoment, hnumber⟩
  · rfl
  · rfl
  · have hmark : rest.head? ≠ some c := by
      intro hhead
      have hstop := hrest c hhead
      rcases hc with rfl | rfl <;> exact absurd hstop (by decide)
    have ht : c ≠ 't' ∧ c ≠ 'f' := by rcases hc with rfl | rfl <;> decide
    rw [List.cons_append, scalar_cons _ ht.1 ht.2, if_pos (by simpa using hc),
      anyString_append hmark hstring]
    rfl
  · have hinteger := (number_eq_integer_iff.mp hnumber).2
    cases written with
    | nil => exact absurd rfl (ne_nil_of_integer hinteger)
    | cons c more =>
        have hc := integer_head hinteger
        simp only [List.mem_cons, not_or] at hc
        rw [List.cons_append, scalar_cons _ hc.1 hc.2.1, if_neg (by simp [hc]),
          ← List.cons_append, moment?_append hrest hmoment]
        exact number_append hrest hnumber

/-- **A simple value ends where it stops**: read in front of what stops it, it is what it is
by itself. -/
theorem value_append {span : Span} (h : value written = .ok (.scalar span content, left)) :
    value (written ++ rest) =
      .ok (.scalar ⟨written ++ rest, left ++ rest⟩ content, left ++ rest) := by
  obtain ⟨hscalar, hbracket, hbrace⟩ := scalar_of_value h
  have happend := scalar_append hrest hsimple hscalar
  cases written with
  | nil => cases hscalar
  | cons c more =>
      rw [List.cons_append] at happend ⊢
      rw [value_cons _ (by simpa using hbracket) (by simpa using hbrace), leaf, happend]
      rfl

end

end Salutation.Toml
