/-
What a statement takes from its text.

A reader gives back the rest of its text, and what it has read is what stands before the
rest.  For keys this never goes beyond the end of a line, since no key holds a line feed.
A value may, but where it does not, a statement is part of one line: it starts with its
first key or its bracket, and the line goes on to the next line feed.
-/
import Salutation.Proofs.Text.Lines
import Salutation.Proofs.Toml.Outline
import Salutation.Proofs.Toml.Document

namespace Salutation.Toml

open Text

/-- What is read from a text within its first line, and what is left of the text. -/
def TakesWithinLine (text rest : List Char) : Prop :=
  ∃ written, text = written ++ rest ∧ '\n' ∉ written

namespace TakesWithinLine

theorem refl (text : List Char) : TakesWithinLine text text := ⟨[], rfl, by simp⟩

theorem cons {c : Char} {text rest : List Char} (hc : c ≠ '\n') (h : TakesWithinLine text rest) :
    TakesWithinLine (c :: text) rest := by
  obtain ⟨written, rfl, hwritten⟩ := h
  exact ⟨c :: written, rfl, by simp [hc.symm, hwritten]⟩

theorem trans {text middle rest : List Char} (h : TakesWithinLine text middle)
    (hmiddle : TakesWithinLine middle rest) : TakesWithinLine text rest := by
  obtain ⟨first, rfl, hfirst⟩ := h
  obtain ⟨second, rfl, hsecond⟩ := hmiddle
  exact ⟨first ++ second, (List.append_assoc _ _ _).symm, by simp [hfirst, hsecond]⟩

theorem isSuffix {text rest : List Char} (h : TakesWithinLine text rest) : rest <:+ text := by
  obtain ⟨written, rfl, -⟩ := h
  exact List.suffix_append written rest

theorem count {text rest : List Char} (h : TakesWithinLine text rest) :
    text.count '\n' = rest.count '\n' := by
  obtain ⟨written, rfl, hwritten⟩ := h
  simp [List.count_eq_zero.mpr hwritten]

/-- Characters that are no line feed may be dropped. -/
theorem dropWhile {p : Char → Bool} (hp : p '\n' = false) (text : List Char) :
    TakesWithinLine text (text.dropWhile p) := by
  refine ⟨text.takeWhile p, List.takeWhile_append_dropWhile.symm, fun hmem => ?_⟩
  rw [List.mem_takeWhile_imp hmem] at hp
  cases hp

end TakesWithinLine

theorem takes_skipSpaces (text : List Char) : TakesWithinLine text (skipSpaces text) :=
  .dropWhile (by decide) text

/-- What is skipped are spaces. -/
theorem exists_spaces {text rest : List Char} (h : skipSpaces text = rest) :
    ∃ spaces, (∀ c ∈ spaces, isSpace c = true) ∧ text = spaces ++ rest := by
  refine ⟨text.takeWhile isSpace, fun c hc => List.mem_takeWhile_imp hc, ?_⟩
  rw [← h]
  exact List.takeWhile_append_dropWhile.symm

/-! ### Keys -/

/-- The modes in which a string on one line is read. -/
def Mode.isInline : Mode → Bool
  | .plain | .escaped | .codePoint _ _ => true
  | .carriageReturn _ | .swallowing => false

/-- In a string that is no block no line feed is passed over. -/
theorem Passes.isInline {form : Form} (hblock : form.block = false) {c : Char} {more : List Char}
    {mode next : Mode} {added : Option Char} (h : Passes form c more mode added next)
    (hmode : mode.isInline = true) : c ≠ '\n' ∧ next.isInline = true := by
  cases h with
  | letter h =>
      refine ⟨?_, rfl⟩
      rintro rfl
      cases h
  | number h hc => rcases hc with ⟨rfl, rfl⟩ | ⟨rfl, rfl⟩ <;> decide
  | digit h | lastDigit h =>
      refine ⟨?_, rfl⟩
      rintro rfl
      cases h
  | slash hlooks hopen hescapes hc => exact ⟨by rw [hc]; decide, rfl⟩
  | itself hlooks hopen hslash hplain =>
      refine ⟨?_, rfl⟩
      rintro rfl
      simp [hblock, isPlain] at hplain
  | lineEnd h hc hblock' | carriageReturn hblock' =>
      rw [hblock] at hblock'
      cases hblock'
  | feed | swallowedFeed | blank | swallowedReturn => cases hmode

/-- A string that is no block ends on its line. -/
theorem stringBody_takes {form : Form} (hblock : form.block = false) {mode : Mode}
    (hmode : mode.isInline = true) {text content rest : List Char} (hmark : form.mark ≠ '\n')
    (h : stringBody form mode text = .ok (content, rest)) : TakesWithinLine text rest := by
  induction text generalizing mode content with
  | nil => cases mode <;> cases h
  | cons c more ih =>
      rcases stringBody_cases h with ⟨-, hclosing⟩ | ⟨_, _, _, hpasses, hmore, -⟩
      · simp only [closing?, hblock, Bool.false_eq_true, if_false] at hclosing
        split_ifs at hclosing with hc
        cases hclosing
        exact .cons (hc ▸ hmark) (.refl _)
      · obtain ⟨hc, hnext⟩ := hpasses.isInline hblock hmode
        exact .cons hc (ih hnext hmore)

/-- A key lies on its line and starts with a quote or a character of a bare key. -/
theorem simpleKey?_takes {text rest : List Char} {key : Key}
    (h : simpleKey? text = .ok (some (key, rest))) :
    TakesWithinLine text rest ∧ key.span.start = text ∧
      ∃ c more, text = c :: more ∧ (c = '"' ∨ c = '\'' ∨ isBare c = true) := by
  cases text with
  | nil => cases h
  | cons c more =>
      unfold simpleKey? at h
      dsimp only at h
      split at h
      case isTrue hquote =>
        obtain ⟨⟨name, after⟩, hstring, h⟩ := bind_eq_ok.mp h
        cases h
        have hc : c = '"' ∨ c = '\'' := by simpa using hquote
        have hfeed : c ≠ '\n' := by rcases hc with rfl | rfl <;> decide
        refine ⟨.cons hfeed (stringBody_takes rfl rfl hfeed hstring), rfl, c, more, rfl, ?_⟩
        exact hc.imp_right Or.inl
      case isFalse =>
        split at h
        case isTrue hbare =>
          cases h
          exact ⟨.dropWhile (by decide) _, rfl, c, more, rfl, Or.inr (Or.inr hbare)⟩
        case isFalse => cases h

/-- A path lies on its line and starts with its first key. -/
theorem keyPathFrom?_takes {fuel : Nat} {text rest : List Char} {path : KeyPath}
    (h : keyPathFrom? fuel text = .ok (some (path, rest))) :
    TakesWithinLine text rest ∧ path.start = skipSpaces text ∧
      ∃ c more, skipSpaces text = c :: more ∧ (c = '"' ∨ c = '\'' ∨ isBare c = true) := by
  induction fuel generalizing text rest path with
  | zero => cases h
  | succ fuel ih =>
      obtain ⟨first?, hfirst, h⟩ := bind_eq_ok.mp h
      cases first? with
      | none => cases h
      | some first =>
          obtain ⟨key, after⟩ := first
          obtain ⟨htakes, hstart, hhead⟩ := simpleKey?_takes hfirst
          have hafter : TakesWithinLine text (skipSpaces after) :=
            (takes_skipSpaces text).trans (htakes.trans (takes_skipSpaces after))
          dsimp only at h
          split at h
          case h_1 more hpoint =>
            obtain ⟨others?, hothers, h⟩ := bind_eq_ok.mp h
            rw [hpoint] at hafter
            cases others? with
            | none =>
                cases h
                exact ⟨hafter, hstart, hhead⟩
            | some others =>
                obtain ⟨later, stop⟩ := others
                cases h
                obtain ⟨hmore, -⟩ := ih hothers
                exact ⟨hafter.trans (.cons (by decide) hmore), hstart, hhead⟩
          case h_2 =>
            cases h
            exact ⟨hafter, hstart, hhead⟩

theorem keyPath?_takes {text rest : List Char} {path : KeyPath}
    (h : keyPath? text = .ok (some (path, rest))) :
    TakesWithinLine text rest ∧ path.start = skipSpaces text ∧
      ∃ c more, skipSpaces text = c :: more ∧ (c = '"' ∨ c = '\'' ∨ isBare c = true) := by
  obtain ⟨path?, hpath, h⟩ := bind_eq_ok.mp h
  cases path? with
  | none => cases h
  | some found =>
      obtain ⟨found, after⟩ := found
      dsimp only at h
      split at h
      · cases h
        exact keyPathFrom?_takes hpath
      · cases h

/-! ### Values and line endings -/

/-- A value stands where it was read. -/
theorem span?_of_value {text after : List Char} {node : Node}
    (h : value text = .ok (node, after)) : node.span? = some ⟨text, after⟩ := by
  unfold value nestingLimit valueWithin at h
  split at h
  case h_1 =>
    obtain ⟨_, -, h⟩ := bind_eq_ok.mp h
    cases h
    rfl
  case h_2 =>
    obtain ⟨⟨members, stop⟩, -, h⟩ := bind_eq_ok.mp h
    obtain ⟨table, -, h⟩ := bind_eq_ok.mp h
    split at h <;> cases h
    rfl
  case h_3 =>
    obtain ⟨⟨found, left⟩, -, h⟩ := bind_eq_ok.mp h
    cases h
    rfl

theorem TakesWithinLine.startsWith {text stop next : List Char} (h : TakesWithinLine text stop)
    (hstop : stop = [] ∧ next = [] ∨ newline? stop = some next) :
    ∃ line, StartsWith text line next := by
  obtain ⟨written, rfl, hwritten⟩ := h
  rcases hstop with ⟨rfl, rfl⟩ | hline
  · exact ⟨written, hwritten, Or.inr ⟨List.append_nil written, rfl⟩⟩
  · rcases newline?_cases hline with rfl | rfl
    · exact ⟨written, hwritten, Or.inl rfl⟩
    · exact ⟨written ++ ['\r'], by simpa using hwritten, Or.inl (by simp)⟩

/-- Behind the end of a line starts the next. -/
theorem startsWith_of_lineEnd {text next : List Char} (h : lineEnd text = .ok next) :
    ∃ line, StartsWith text line next := by
  have hskip := takes_skipSpaces text
  unfold lineEnd at h
  cases hstart : skipSpaces text with
  | nil =>
      rw [hstart] at h hskip
      cases h
      exact hskip.startsWith (Or.inl ⟨rfl, rfl⟩)
  | cons c more =>
      rw [hstart] at h hskip
      by_cases hcomment : c = '#'
      · subst hcomment
        have htakes : TakesWithinLine text (more.dropWhile isPlain) :=
          hskip.trans (.cons (by decide) (.dropWhile (by decide) more))
        refine htakes.startsWith ?_
        dsimp only at h
        split at h
        case h_1 hstop =>
          cases h
          exact Or.inl ⟨hstop, rfl⟩
        case h_2 =>
          split at h
          · cases h
            exact Or.inr ‹_›
          · cases h
      · refine hskip.startsWith (Or.inr ?_)
        cases hline : newline? (c :: more) with
        | none => simp [hcomment, hline, refuse] at h
        | some rest =>
            have hnext : rest = next := by simpa [hcomment, hline] using h
            rw [hnext]

/-- A comment goes on behind its sign, to the end of its line. -/
theorem startsWith_of_comment {more next : List Char} (h : lineEnd ('#' :: more) = .ok next) :
    ∃ line, StartsWith more line next := by
  obtain ⟨line, hline, htext⟩ := startsWith_of_lineEnd h
  cases line with
  | nil => rcases htext with htext | ⟨htext, -⟩ <;> cases htext
  | cons c line =>
      have hfeed : '\n' ∉ line := List.not_mem_of_not_mem_cons hline
      rcases htext with htext | ⟨htext, hnext⟩
      · cases htext
        exact ⟨line, hfeed, Or.inl rfl⟩
      · cases htext
        exact ⟨more, hfeed, Or.inr ⟨rfl, hnext⟩⟩

/-! ### Statements -/

/-- What stands behind the opening brackets of a header. -/
def behindBrackets (text : List Char) : List Char :=
  text.drop (if text.take 2 = ['[', '['] then 2 else 1)

/-- A header is a path between brackets, and then its line ends. -/
theorem header_ok {text next : List Char} {found : Header} (h : header text = .ok (found, next)) :
    found.span.start = text ∧ ∃ more line,
      keyPath? (behindBrackets text) = .ok (some (found.path, ']' :: more)) ∧
        StartsWith more line next := by
  obtain ⟨closing, hclosing, hwhich⟩ : ∃ closing,
      (if text.take 2 = ['[', '['] then "]]" else "]") = closing ∧
        (closing = "]]" ∨ closing = "]") := by
    refine ⟨_, rfl, ?_⟩
    split
    · exact Or.inl rfl
    · exact Or.inr rfl
  unfold header at h
  dsimp only at h
  rw [hclosing] at h
  obtain ⟨path?, hpath, h⟩ := bind_eq_ok.mp h
  cases path? with
  | none => cases h
  | some result =>
      obtain ⟨path, rest⟩ := result
      dsimp only at h
      split at h
      case isFalse => cases h
      case isTrue hprefix =>
        obtain ⟨_, hend, h⟩ := bind_eq_ok.mp h
        cases h
        obtain ⟨line, hline⟩ := startsWith_of_lineEnd hend
        obtain ⟨left, rfl⟩ := List.isPrefixOf_iff_prefix.mp hprefix
        have hsecond : '\n' ∉ [']'] := by decide
        rcases hwhich with rfl | rfl
        · exact ⟨rfl, _, _, hpath, hline.append hsecond⟩
        · exact ⟨rfl, _, _, hpath, hline⟩

/-- A statement is a header, with a path between its brackets, or a path, an equals sign and
a value; and then its line ends. -/
theorem statement_cases {text next : List Char} {first : Statement}
    (h : statement text = .ok (first, next)) :
    (∃ header more line, first = .header header ∧ text.head? = some '[' ∧
        header.span.start = text ∧
        keyPath? (behindBrackets text) = .ok (some (header.path, ']' :: more)) ∧
        StartsWith more line next) ∨
      (∃ assignment rest after line, first = .assign assignment ∧ text.head? ≠ some '[' ∧
        keyPath? text = .ok (some (assignment.path, '=' :: rest)) ∧
        value (skipSpaces rest) = .ok (assignment.value, after) ∧ StartsWith after line next) := by
  unfold statement at h
  split at h
  case h_1 more =>
    obtain ⟨⟨found, stop⟩, hheader, h⟩ := bind_eq_ok.mp h
    cases h
    obtain ⟨hstart, rest, line, hpath, hline⟩ := header_ok hheader
    exact Or.inl ⟨found, rest, line, rfl, rfl, hstart, hpath, hline⟩
  case h_2 hbracket =>
    obtain ⟨result?, hresult, h⟩ := bind_eq_ok.mp h
    cases result? with
    | none => cases h
    | some result =>
        obtain ⟨assignment, after⟩ := result
        obtain ⟨_, hend, h⟩ := bind_eq_ok.mp h
        cases h
        obtain ⟨line, hline⟩ := startsWith_of_lineEnd hend
        have hhead : text.head? ≠ some '[' := by
          intro hhead
          obtain ⟨more, rfl⟩ := List.head?_eq_some_iff.mp hhead
          exact hbracket more rfl
        obtain ⟨path?, hpath, hresult⟩ := bind_eq_ok.mp hresult
        split at hresult
        case h_1 => cases hresult
        case h_2 path rest =>
          obtain ⟨⟨node, stop⟩, hvalue, hresult⟩ := bind_eq_ok.mp hresult
          cases hresult
          exact Or.inr ⟨_, rest, after, line, rfl, hhead, hpath, hvalue, hline⟩
        case h_3 => cases hresult

end Salutation.Toml
