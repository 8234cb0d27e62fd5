/-
Line endings and indentation.

The search for a key's line takes the blanks at the start of each line off, and looks no further
than the closing bracket of a header or the equals sign behind a key.  So it does not notice
blanks at the start of a line, and it does not notice a carriage return at the end of one either,
whether that belongs to the ending or is one too many and left on the line.  Lines that differ in
nothing else are read alike (`ReadsAlike`), and a text that is laid out in another way
(`IsRelaid`) has the same lines up to that; only behind its last line feed there may be a line
more, of nothing but blanks.
-/
import Salutation.Proofs.Config.KeyLine

namespace Salutation.Config

open Text

/-! ### Lines that are read alike -/

/-- Two lines that make no difference to the search. -/
structure ReadsAlike (line other : List Char) : Prop where
  header : headerText? (trimStart line) = headerText? (trimStart other)
  key : ∀ key, isKeyLine key (trimStart line) = isKeyLine key (trimStart other)

namespace ReadsAlike

variable {line other third : List Char}

theorem symm (h : ReadsAlike line other) : ReadsAlike other line :=
  ⟨h.header.symm, fun key => (h.key key).symm⟩

theorem trans (h : ReadsAlike line other) (hother : ReadsAlike other third) :
    ReadsAlike line third :=
  ⟨h.header.trans hother.header, fun key => (h.key key).trans (hother.key key)⟩

theorem of_trimStart (h : trimStart line = trimStart other) : ReadsAlike line other :=
  ⟨by rw [h], fun _ => by rw [h]⟩

end ReadsAlike

/-- A character at the end stands behind any other character that is looked for. -/
theorem exists_of_concat {text front more : List Char} {c last : Char} (hc : c ≠ last)
    (h : text ++ [last] = front ++ c :: more) :
    ∃ left, more = left ++ [last] ∧ text = front ++ c :: left := by
  rcases List.eq_nil_or_concat more with rfl | ⟨left, other, rfl⟩
  · have hlast := (List.append_inj' h rfl).2
    exact absurd (List.singleton_inj.mp hlast).symm hc
  · rw [List.concat_eq_append, ← List.cons_append, ← List.append_assoc] at h
    obtain ⟨htext, hlast⟩ := List.append_inj' h rfl
    exact ⟨left, by rw [List.concat_eq_append, hlast], htext⟩

/-- The text of a header ends in front of its closing bracket. -/
theorem headerText?_concat_return (line : List Char) :
    headerText? (line ++ ['\r']) = headerText? line := by
  have hhead : ∀ inner rest other : List Char,
      (inner ++ ']' :: other).head? = (inner ++ ']' :: rest).head? := by
    intro inner rest other
    cases inner <;> rfl
  apply Option.ext
  intro text
  rw [headerText?_eq_some_iff, headerText?_eq_some_iff]
  constructor
  · rintro ⟨brackets, inner, rest, hopens, hinner, hline, htext⟩
    rw [← List.append_assoc] at hline
    obtain ⟨left, -, hleft⟩ := exists_of_concat (by decide) hline
    rw [List.append_assoc] at hleft
    exact ⟨brackets, inner, left, hopens.congr (hhead inner rest left), hinner, hleft, htext⟩
  · rintro ⟨brackets, inner, rest, hopens, hinner, rfl, htext⟩
    exact ⟨brackets, inner, rest ++ ['\r'], hopens.congr (hhead inner rest _), hinner,
      by simp, htext⟩

/-- What stands behind the equals sign does not count. -/
theorem isKeyLine_concat_return (key line : List Char) :
    isKeyLine key (line ++ ['\r']) = isKeyLine key line := by
  rw [Bool.eq_iff_iff, isKeyLine_iff, isKeyLine_iff]
  constructor
  · rintro ⟨blanks, more, hblanks, hline⟩
    rw [← List.append_assoc] at hline
    obtain ⟨left, -, hleft⟩ := exists_of_concat (by decide) hline
    exact ⟨blanks, left, hblanks, by rw [hleft, List.append_assoc]⟩
  · rintro ⟨blanks, more, hblanks, rfl⟩
    exact ⟨blanks, more ++ ['\r'], hblanks, by simp⟩

/-- A carriage return at the end of a line makes no difference. -/
theorem readsAlike_concat_return (line : List Char) : ReadsAlike (line ++ ['\r']) line := by
  by_cases hblank : trimStart line = []
  · refine .of_trimStart ?_
    rw [trimStart, List.dropWhile_append, ← trimStart, hblank]
    rfl
  · have htrim : trimStart (line ++ ['\r']) = trimStart line ++ ['\r'] := by
      rw [trimStart, List.dropWhile_append, ← trimStart, if_neg (by simpa using hblank)]
    exact ⟨by rw [htrim, headerText?_concat_return],
      fun key => by rw [htrim, isKeyLine_concat_return]⟩

theorem readsAlike_withoutReturn (line : List Char) : ReadsAlike (withoutReturn line) line := by
  unfold withoutReturn
  split
  case isTrue hreturn =>
    obtain ⟨front, rfl⟩ := List.getLast?_eq_some_iff.mp hreturn
    rw [List.dropLast_concat]
    exact (readsAlike_concat_return front).symm
  case isFalse => exact .of_trimStart rfl

/-! ### Texts that are laid out in another way

The relation follows the lines of the text, as the search does, so that one line and its other form
can be compared while the rest is left to the induction.  The last line has no line feed of its own,
and blanks may make one where there was none.
-/

/-- White space that leaves a line what it is. -/
def IsIndent (blanks : List Char) : Prop := ∀ c ∈ blanks, isBlank c = true ∧ c ≠ '\n'

/-- The same lines with other blanks in front of them, and with carriage returns in front of some
of their line feeds. -/
inductive IsRelaid : List Char → List Char → Prop where
  | last {indent line : List Char} (hindent : IsIndent indent) (hline : '\n' ∉ line) :
      IsRelaid line (indent ++ line)
  | more {indent line ending rest other : List Char} (hindent : IsIndent indent)
      (hline : '\n' ∉ line) (hending : ending = [] ∨ ending = ['\r'])
      (hrest : IsRelaid rest other) :
      IsRelaid (line ++ '\n' :: rest) (indent ++ (line ++ ending) ++ '\n' :: other)

theorem isIndent_nil : IsIndent [] := fun _ hc => absurd hc List.not_mem_nil

section

variable {indent line ending : List Char} (hindent : IsIndent indent)

include hindent

theorem readsAlike_indent (line : List Char) : ReadsAlike (indent ++ line) line :=
  .of_trimStart (trimStart_append (fun c hc => (hindent c hc).1) line)

theorem IsIndent.not_mem (hline : '\n' ∉ line) : '\n' ∉ indent ++ line := by
  rw [List.mem_append, not_or]
  exact ⟨fun hmem => (hindent _ hmem).2 rfl, hline⟩

/-- Blanks in front of a line and a carriage return behind it make no difference. -/
theorem readsAlike_relaid (hending : ending = [] ∨ ending = ['\r']) (line : List Char) :
    ReadsAlike (withoutReturn (indent ++ (line ++ ending))) (withoutReturn line) := by
  have hreturn : ReadsAlike (line ++ ending) line := by
    rcases hending with rfl | rfl
    · exact .of_trimStart (by rw [List.append_nil])
    · exact readsAlike_concat_return line
  exact (readsAlike_withoutReturn _).trans
    ((readsAlike_indent hindent _).trans (hreturn.trans (readsAlike_withoutReturn line).symm))

end

section

variable {table? : Option (List Char)} {key : List Char}

theorem keyLineFrom_alike {line other : List Char} {more others : List (List Char)}
    (hline : ReadsAlike line other)
    (hmore : ∀ number current?, keyLineFrom table? key number current? more =
      keyLineFrom table? key number current? others)
    (number : Nat) (current? : Option (List Char)) :
    keyLineFrom table? key number current? (line :: more) =
      keyLineFrom table? key number current? (other :: others) := by
  rw [keyLineFrom, keyLineFrom]
  simp only [hline.header, hline.key, hmore]

/-- A last line of nothing but blanks is passed over. -/
theorem keyLineFrom_blanks {indent : List Char} (hindent : IsIndent indent) (number : Nat)
    (current? : Option (List Char)) : keyLineFrom table? key number current? [indent] = none := by
  have hnothing : trimStart indent = [] :=
    List.dropWhile_eq_nil_iff.mpr fun c hc => (hindent c hc).1
  have hkey : isKeyLine key [] = false := by
    rw [isKeyLine, List.drop_nil]
    exact Bool.and_false _
  exact keyLineFrom_passed ⟨by rw [hnothing]; rfl, by rw [hnothing, hkey]⟩ number current? []

/-- The search goes over the lines of a text that is laid out in another way as over those of the
text. -/
theorem keyLineFrom_relaid {text other : List Char} (h : IsRelaid text other) (number : Nat)
    (current? : Option (List Char)) :
    keyLineFrom table? key number current? (lines other) =
      keyLineFrom table? key number current? (lines text) := by
  induction h generalizing number current? with
  | @last indent line hindent hline =>
      rw [lines_of_line hline, lines_of_line (hindent.not_mem hline)]
      by_cases hnothing : line = []
      · subst hnothing
        rw [List.append_nil, if_pos rfl]
        split
        · rfl
        · exact keyLineFrom_blanks hindent number current?
      · rw [if_neg hnothing, if_neg (by simp [hnothing])]
        exact keyLineFrom_alike (readsAlike_indent hindent line) (fun _ _ => rfl) number current?
  | @more indent line ending rest other hindent hline hending _ ih =>
      have hended : '\n' ∉ line ++ ending := by
        rcases hending with rfl | rfl <;> simp [hline]
      rw [lines_append hline, lines_append (hindent.not_mem hended)]
      exact keyLineFrom_alike (readsAlike_relaid hindent hending line) ih number current?

end

/-! ### Two ways to change the layout -/

/-- A text with a carriage return in front of every line feed. -/
def withReturns (text : List Char) : List Char :=
  text.flatMap fun c => if c = '\n' then ['\r', '\n'] else [c]

/-- What follows the start of a line, with blanks put in front of the lines after it; `number` is
that of the next line. -/
def reindentFrom (indent : Nat → List Char) : Nat → List Char → List Char
  | _, [] => []
  | number, c :: rest =>
    if c = '\n' then '\n' :: (indent number ++ reindentFrom indent (number + 1) rest)
    else c :: reindentFrom indent number rest

/-- A text with blanks put in front of each of its lines, counted from one. -/
def reindent (indent : Nat → List Char) (text : List Char) : List Char :=
  indent 1 ++ reindentFrom indent 2 text

theorem withReturns_of_line {line : List Char} (hline : '\n' ∉ line) : withReturns line = line := by
  induction line with
  | nil => rfl
  | cons c line ih =>
      have hc : c ≠ '\n' := (List.ne_of_not_mem_cons hline).symm
      rw [withReturns, List.flatMap_cons, if_neg hc, ← withReturns,
        ih (List.not_mem_of_not_mem_cons hline), List.singleton_append]

theorem isRelaid_withReturns (text : List Char) : IsRelaid text (withReturns text) := by
  induction text using induction_on_lines with
  | last line hline =>
      rw [withReturns_of_line hline]
      exact .last isIndent_nil hline
  | more line rest hline ih =>
      have htext : withReturns (line ++ '\n' :: rest) =
          [] ++ (line ++ ['\r']) ++ '\n' :: withReturns rest := by
        rw [withReturns, List.flatMap_append, ← withReturns, withReturns_of_line hline]
        simp [withReturns]
      rw [htext]
      exact .more isIndent_nil hline (Or.inr rfl) ih

section

variable {indent : Nat → List Char}

theorem reindentFrom_append {line : List Char} (hline : '\n' ∉ line) (number : Nat)
    (rest : List Char) :
    reindentFrom indent number (line ++ rest) = line ++ reindentFrom indent number rest := by
  induction line with
  | nil => rfl
  | cons c line ih =>
      have hc : c ≠ '\n' := (List.ne_of_not_mem_cons hline).symm
      rw [List.cons_append, reindentFrom, if_neg hc, ih (List.not_mem_of_not_mem_cons hline),
        List.cons_append]

variable (hindent : ∀ number, IsIndent (indent number))

include hindent

theorem isRelaid_reindentFrom (number : Nat) (text : List Char) :
    IsRelaid text (indent number ++ reindentFrom indent (number + 1) text) := by
  induction text using induction_on_lines generalizing number with
  | last line hline =>
      have hsame : reindentFrom indent (number + 1) (line ++ []) = line ++ [] :=
        reindentFrom_append hline (number + 1) []
      rw [List.append_nil] at hsame
      rw [hsame]
      exact .last (hindent number) hline
  | more line rest hline ih =>
      have htext : indent number ++ reindentFrom indent (number + 1) (line ++ '\n' :: rest) =
          indent number ++ (line ++ []) ++
            '\n' :: (indent (number + 1) ++ reindentFrom indent (number + 1 + 1) rest) := by
        rw [reindentFrom_append hline, reindentFrom, if_pos rfl, List.append_nil, List.append_assoc]
      rw [htext]
      exact .more (hindent number) hline (Or.inl rfl) (ih (number + 1))

theorem isRelaid_reindent (text : List Char) : IsRelaid text (reindent indent text) :=
  isRelaid_reindentFrom hindent 1 text

end

/-- **Line endings and indentation do not change the line that is found.**  With a carriage return
in front of every line feed, with any white space but line feeds at the starts of the lines, and
with both, the search finds the same line for every key of every table; so warnings report the
same lines. -/
theorem line_of_any_layout (content : List Char) (table : Option String) (key : String)
    {indent : Nat → List Char}
    (hindent : ∀ number, ∀ c ∈ indent number, isBlank c = true ∧ c ≠ '\n') :
    keyLine? (withReturns content) table key = keyLine? content table key ∧
    keyLine? (reindent indent content) table key = keyLine? content table key ∧
    keyLine? (reindent indent (withReturns content)) table key = keyLine? content table key ∧
    ∀ (file : Path) (path : List String),
      warn file (lines (reindent indent (withReturns content))) path =
        warn file (lines content) path := by
  have hsame : ∀ {text other : List Char}, IsRelaid text other → ∀ table key,
      keyLine? other table key = keyLine? text table key :=
    fun h _ _ => keyLineFrom_relaid h 1 none
  have hreturns := hsame (isRelaid_withReturns content)
  have hboth : ∀ table key,
      keyLine? (reindent indent (withReturns content)) table key = keyLine? content table key :=
    fun table key =>
      (hsame (isRelaid_reindent hindent (withReturns content)) table key).trans
        (hreturns table key)
  refine ⟨hreturns table key, hsame (isRelaid_reindent hindent content) table key,
    hboth table key, fun file path => ?_⟩
  unfold warn
  dsimp only
  exact congrArg (Warning.mk _ file · _) (hboth _ _)

/-- A line with a carriage return of its own and one that is not ended, tabs and an em space in
front of them, and a key that is found behind a header. -/
theorem line_of_any_layout_of_tabs :
    let content := "[greeting]\nname = 'x'\r\nextra = 1".toList
    let indent : Nat → List Char := fun number => if number = 2 then ['\t', '\r'] else ['\u2003']
    (∀ number, ∀ c ∈ indent number, isBlank c = true ∧ c ≠ '\n') ∧
      reindent indent (withReturns content) =
        "\u2003[greeting]\r\n\t\rname = 'x'\r\r\n\u2003extra = 1".toList ∧
      keyLine? (reindent indent (withReturns content)) (some "greeting") "extra" = some 3 := by
  intro content indent
  have hindent : ∀ number, ∀ c ∈ indent number, isBlank c = true ∧ c ≠ '\n' := by
    intro number
    by_cases hsecond : number = 2
    · rw [show indent number = ['\t', '\r'] from if_pos hsecond]
      simp [isBlank]
    · rw [show indent number = ['\u2003'] from if_neg hsecond]
      simp [isBlank]
  obtain ⟨-, -, hboth, -⟩ := line_of_any_layout content (some "greeting") "extra" hindent
  refine ⟨hindent, by decide +kernel, ?_⟩
  rw [hboth]
  decide +kernel

end Salutation.Config
