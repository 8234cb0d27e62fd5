/-
One line and the statement on it.

The search for a key's line looks at characters, and the reader of documents at statements.
On the line of one statement they agree, for bare keys: a header that the search takes for a
table's has that table as its path, or goes on from it, and an assignment that it takes for
the key's has the key alone as its path.  The reader may see more than the search, spaces
around points and quoted keys for example, but what the search recognises is what is there.
-/
import Salutation.Proofs.Config.KeyLine

namespace Salutation

open Toml Text

namespace Toml

/-! ### Keys behind blanks -/

/-- Where a key starts behind blanks, these are spaces. -/
theorem skipSpaces_of_key {blanks key after : List Char} (hblanks : ∀ c ∈ blanks, isBlank c = true)
    (hkey : IsBareKey key) {c : Char} {more : List Char}
    (hstart : skipSpaces (blanks ++ (key ++ after)) = c :: more)
    (hc : c = '"' ∨ c = '\'' ∨ isBare c = true) :
    skipSpaces (blanks ++ (key ++ after)) = key ++ after := by
  induction blanks with
  | nil => exact hkey.skipSpaces after
  | cons b blanks ih =>
      have hb : isBlank b = true := hblanks b List.mem_cons_self
      by_cases hspace : isSpace b = true
      · have hskip : skipSpaces (b :: blanks ++ (key ++ after)) =
            skipSpaces (blanks ++ (key ++ after)) := List.dropWhile_cons_of_pos hspace
        rw [hskip] at hstart ⊢
        exact ih (fun d hd => hblanks d (List.mem_cons_of_mem _ hd)) hstart
      · -- A blank that is no space starts no key.
        rw [List.cons_append, skipSpaces_cons (by simpa using hspace)] at hstart
        cases hstart
        have hbare := isBare_of_isBlank hb
        rcases hc with rfl | rfl | hc
        · exact absurd hb (by decide)
        · exact absurd hb (by decide)
        · rw [hbare] at hc
          cases hc

/-- Behind blanks there is no point unless it stands right there. -/
theorem head?_skipSpaces_ne {blanks rest : List Char} {c : Char}
    (hblanks : ∀ d ∈ blanks, isBlank d = true) (hspace : isSpace c = false) (hc : c ≠ '.') :
    (skipSpaces (blanks ++ c :: rest)).head? ≠ some '.' := by
  induction blanks with
  | nil => simpa [skipSpaces_cons hspace] using hc
  | cons b blanks ih =>
      have hb : isBlank b = true := hblanks b List.mem_cons_self
      by_cases hskip : isSpace b = true
      · rw [List.cons_append, skipSpaces, List.dropWhile_cons_of_pos hskip]
        exact ih fun d hd => hblanks d (List.mem_cons_of_mem _ hd)
      · rw [List.cons_append, skipSpaces_cons (by simpa using hskip)]
        rintro hpoint
        cases hpoint
        exact absurd hb (by decide)

theorem isBare_head_of_blanks {blanks rest : List Char} {c : Char}
    (hblanks : ∀ d ∈ blanks, isBlank d = true) (hc : isBare c = false) :
    ∀ d ∈ (blanks ++ c :: rest).head?, isBare d = false := by
  intro d hd
  cases blanks with
  | nil =>
      cases hd
      exact hc
  | cons b blanks =>
      cases hd
      exact isBare_of_isBlank (hblanks _ List.mem_cons_self)

section

variable {text rest blanks key : List Char} {path : KeyPath} (hkey : IsBareKey key)
  (hblanks : ∀ c ∈ blanks, isBlank c = true)

include hkey hblanks

/-- A path that reads as a key between blanks, and then goes on without a point, is that key. -/
theorem names_of_key {between after : List Char} {c : Char}
    (hbetween : ∀ d ∈ between, isBlank d = true) (hbare : isBare c = false)
    (hspace : isSpace c = false) (hpoint : c ≠ '.')
    (htext : text = blanks ++ (key ++ (between ++ c :: after)))
    (h : keyPath? text = .ok (some (path, rest))) : path.names = [String.ofList key] := by
  obtain ⟨-, -, d, more, hstart, hd⟩ := keyPath?_takes h
  rw [htext] at hstart
  have hskip := skipSpaces_of_key hblanks hkey hstart hd
  rw [← htext] at hskip
  obtain ⟨others, hnames, hothers⟩ := keyPath?_first hkey hskip
    (isBare_head_of_blanks hbetween hbare) h
  rw [KeyPath.names, hnames, hothers (head?_skipSpaces_ne hbetween hspace hpoint)]

/-- A path that reads as a key with a point behind it starts with that key. -/
theorem names_of_key_point {after : List Char} (htext : text = blanks ++ (key ++ '.' :: after))
    (h : keyPath? text = .ok (some (path, rest))) : [String.ofList key] <+: path.names := by
  obtain ⟨-, -, d, more, hstart, hd⟩ := keyPath?_takes h
  rw [htext] at hstart
  have hskip := skipSpaces_of_key hblanks hkey hstart hd
  rw [← htext] at hskip
  have hafter : ∀ c ∈ ('.' :: after).head?, isBare c = false := by
    rintro c ⟨⟩
    rfl
  obtain ⟨others, hnames, -⟩ := keyPath?_first hkey hskip hafter h
  exact ⟨others, by rw [KeyPath.names, hnames]; rfl⟩

end

end Toml

namespace Config

/-! ### The line of a header -/

/-- The brackets of a header open it whatever follows them, as long as that starts in the same
way. -/
theorem exists_brackets {text : List Char} (h : text.head? = some '[') :
    ∃ brackets, '\n' ∉ brackets ∧ text = brackets ++ behindBrackets text ∧
      ∀ other, other.head? = (behindBrackets text).head? →
        (brackets ++ other).head? = some '[' ∧ behindBrackets (brackets ++ other) = other := by
  obtain ⟨brackets, hopens, htext⟩ := exists_opensHeader h
  have hfeed : '\n' ∉ brackets := by
    rcases hopens with rfl | ⟨rfl, -⟩ <;> decide
  refine ⟨brackets, hfeed, htext, fun other hother => ⟨?_, ?_⟩⟩
  · rcases hopens with rfl | ⟨rfl, -⟩ <;> rfl
  · exact behindBrackets_append (hopens.congr hother)

section

variable {text spaces more next line : List Char} {path : KeyPath}
  (hspaces : ∀ c ∈ spaces, isSpace c = true) (hhead : text.head? = some '[')
  (hpath : keyPath? (behindBrackets text) = .ok (some (path, ']' :: more)))
  (hline : StartsWith more line next)

include hspaces hhead hpath hline

/-- The line of a header names what stands before the first closing bracket. -/
theorem lines_of_header : ∃ first inside, lines (spaces ++ text) = first :: lines next ∧
    behindBrackets text = inside ++ ']' :: more ∧
    headerText? (trimStart first) = some (trim (inside.takeWhile (· ≠ ']'))) := by
  obtain ⟨⟨inside, hinside, hfeed⟩, -⟩ := keyPath?_takes hpath
  obtain ⟨brackets, hbrackets, htext, hopen⟩ := exists_brackets hhead
  have hfront : '\n' ∉ spaces ++ (brackets ++ inside) := by
    have hnone : '\n' ∉ spaces := not_mem_of_all (by decide) hspaces
    simp [hnone, hbrackets, hfeed]
  have hclosing : '\n' ∉ [']'] := by decide
  have hstarts := (hline.append hclosing).append hfront
  obtain ⟨left, -, hlines⟩ := hstarts.lines (by decide)
  refine ⟨spaces ++ (brackets ++ (inside ++ ']' :: left)), inside, ?_, hinside, ?_⟩
  · rw [htext, hinside]
    simpa using hlines
  · have hsame : (inside ++ ']' :: left).head? = (behindBrackets text).head? := by
      rw [hinside]
      cases inside <;> rfl
    obtain ⟨hfirst, hbehind⟩ := hopen _ hsame
    obtain ⟨rest, hrest⟩ := List.head?_eq_some_iff.mp hfirst
    have htrim : trimStart (spaces ++ (brackets ++ (inside ++ ']' :: left))) =
        brackets ++ (inside ++ ']' :: left) := by
      rw [trimStart_append fun c hc => isBlank_of_isSpace (hspaces c hc), hrest]
      exact trimStart_cons (by decide) _
    rw [htrim, headerText?_eq hfirst, hbehind, if_pos (by simp), takeWhile_closing]

end

/-- What is read of a header agrees with what its line names. -/
theorem names_of_header {text inside more key : List Char} {path : KeyPath} (hkey : IsBareKey key)
    (hpath : keyPath? text = .ok (some (path, ']' :: more))) (htext : text = inside ++ ']' :: more) :
    (trim (inside.takeWhile (· ≠ ']')) = key → path.names = [String.ofList key]) ∧
      (headsTable key (trim (inside.takeWhile (· ≠ ']'))) = true →
        [String.ofList key] <+: path.names) := by
  obtain ⟨front, back, hfront, hback, hinside⟩ := exists_trim (inside.takeWhile (· ≠ ']'))
  obtain ⟨after, hafter⟩ : ∃ after, text = inside.takeWhile (· ≠ ']') ++ ']' :: after := by
    have hsplit : inside.takeWhile (· ≠ ']') ++ inside.dropWhile (· ≠ ']') = inside :=
      List.takeWhile_append_dropWhile
    cases hdrop : inside.dropWhile (· ≠ ']') with
    | nil =>
        rw [hdrop, List.append_nil] at hsplit
        exact ⟨more, by rw [hsplit, htext]⟩
    | cons c rest =>
        have hc : c = ']' := by
          have hhead := List.head?_dropWhile_not (· ≠ ']') inside
          rw [hdrop] at hhead
          simpa using hhead
        rw [hdrop, hc] at hsplit
        refine ⟨rest ++ ']' :: more, htext.trans ?_⟩
        conv_lhs => rw [← hsplit]
        rw [List.append_assoc, List.cons_append]
  have hnamed : trim (inside.takeWhile (· ≠ ']')) = key → path.names = [String.ofList key] := by
    intro hsame
    have hshape : text = front ++ (key ++ (back ++ ']' :: after)) := by
      rw [hafter, hinside, hsame]
      simp
    exact names_of_key hkey hfront hback (by decide) (by decide) (by decide) hshape hpath
  refine ⟨hnamed, fun hheads => ?_⟩
  rcases headsTable_iff.mp hheads with hsame | ⟨below, hbelow⟩
  · exact (hnamed hsame).symm ▸ List.prefix_rfl
  · have hshape : text = front ++ (key ++ '.' :: (below ++ (back ++ ']' :: after))) := by
      rw [hafter, hinside, hbelow]
      simp
    exact names_of_key_point hkey hfront hshape hpath

/-! ### The line of an assignment -/

section

variable {text spaces rest after next line : List Char} {path : KeyPath}
  (hspaces : ∀ c ∈ spaces, isSpace c = true) (hhead : text.head? ≠ some '[')
  (hpath : keyPath? text = .ok (some (path, '=' :: rest)))
  (hrest : TakesWithinLine rest after) (hline : StartsWith after line next)

include hspaces hhead hpath hrest hline

/-- The line of an assignment starts with its key, and names no table. -/
theorem lines_of_assignment (hskip : skipSpaces text = text) :
    ∃ first, lines (spaces ++ text) = first :: lines next ∧ trimStart first <+: text ∧
      headerText? (trimStart first) = none := by
  obtain ⟨⟨written, htext, hwritten⟩, -, c, more, hstart, hc⟩ := keyPath?_takes hpath
  rw [hskip] at hstart
  have hkey : c ≠ '\r' ∧ c ≠ '=' ∧ isBlank c = false := by
    rcases hc with rfl | rfl | hc
    · decide
    · decide
    · refine ⟨?_, ?_, ?_⟩
      · rintro rfl
        exact absurd hc (by decide)
      · rintro rfl
        exact absurd hc (by decide)
      · rw [← Bool.not_eq_true]
        intro hblank
        rw [isBare_of_isBlank hblank] at hc
        cases hc
  obtain ⟨inside, hinside⟩ : ∃ inside, written = c :: inside := by
    rw [htext] at hstart
    cases written with
    | nil =>
        cases hstart
        exact absurd rfl hkey.2.1
    | cons d inside =>
        cases hstart
        exact ⟨inside, rfl⟩
  obtain ⟨value, hvalue, hfeed⟩ := hrest
  have hequals : '\n' ∉ written ++ '=' :: value := by simp [hwritten, hfeed]
  have hstarts : StartsWith text (c :: (inside ++ '=' :: (value ++ line))) next := by
    have hlonger := hline.append hequals
    rw [htext, hvalue]
    rw [hinside] at hlonger ⊢
    simpa using hlonger
  have hnone : '\n' ∉ spaces := not_mem_of_all (by decide) hspaces
  obtain ⟨left, hleft, hlines⟩ := (hstarts.append hnone).lines hkey.1
  have htrim : trimStart (spaces ++ c :: left) = c :: left := by
    rw [trimStart_append fun d hd => isBlank_of_isSpace (hspaces d hd), trimStart_cons hkey.2.2]
  refine ⟨spaces ++ c :: left, hlines, ?_, ?_⟩
  · rw [htrim]
    exact ((List.prefix_cons_inj c).mpr hleft).trans hstarts.isPrefix
  · rw [htrim]
    refine headerText?_of_head fun hopen => ?_
    rw [hstart] at hhead
    exact hhead hopen

end

/-- What is read of an assignment agrees with what its line gives a value to. -/
theorem names_of_keyLine {text start rest key : List Char} {path : KeyPath} (hkey : IsBareKey key)
    (hpath : keyPath? text = .ok (some (path, rest))) (hstart : start <+: text)
    (h : isKeyLine key start = true) : path.names = [String.ofList key] := by
  obtain ⟨blanks, more, hblanks, rfl⟩ := isKeyLine_iff.mp h
  obtain ⟨after, rfl⟩ := hstart
  have hnone : ∀ c ∈ ([] : List Char), isBlank c = true := by simp
  have hshape : key ++ (blanks ++ '=' :: more) ++ after =
      [] ++ (key ++ (blanks ++ '=' :: (more ++ after))) := by
    simp
  exact names_of_key hkey hnone hblanks (by decide) (by decide) (by decide) hshape hpath

end Config

end Salutation
