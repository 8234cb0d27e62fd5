/-
The first line for a key.

The search goes through the lines once, and from those behind it keeps nothing but the text of
the last header.  What it finds can be said without a search: a line qualifies for a key of a
table by what is written on it and by the nearest header above it, and the search finds the first
line that qualifies.

What the search keeps is the header that the next line is under (`IsUnder`).  One line further
this is still so, and there the search stops exactly if the line qualifies.  So wherever it goes
on, no line behind it qualifies, and that is all that the induction over the lines needs.
-/
import Mathlib.Order.Bounds.Basic
import Salutation.Proofs.Config.KeyLine

namespace Salutation.Config

open Text

/-! ### What is written on a line -/

/-- A line that names a table: behind blanks, brackets and the text of the header up to the first
closing bracket.  Blanks at the ends of the text do not belong to it, and what stands behind the
closing bracket does not count. -/
def IsHeader (line text : List Char) : Prop :=
  ∃ blanks brackets inner rest, (∀ c ∈ blanks, isBlank c = true) ∧
    OpensHeader brackets (inner ++ ']' :: rest) ∧ ']' ∉ inner ∧
    line = blanks ++ (brackets ++ (inner ++ ']' :: rest)) ∧ text = trim inner

/-- A line that gives a value to a key: behind the blanks at its start, the key, blanks, and an
equals sign. -/
def IsAssignment (line key : List Char) : Prop :=
  ∃ blanks more, (∀ c ∈ blanks, isBlank c = true) ∧
    trimStart line = key ++ (blanks ++ '=' :: more)

theorem headerText?_trimStart_iff {line text : List Char} :
    headerText? (trimStart line) = some text ↔ IsHeader line text := by
  rw [headerText?_eq_some_iff]
  constructor
  · rintro ⟨brackets, inner, rest, hopens, hinner, hline, htext⟩
    refine ⟨line.takeWhile isBlank, brackets, inner, rest, fun c hc => List.mem_takeWhile_imp hc,
      hopens, hinner, ?_, htext⟩
    rw [← hline, trimStart, List.takeWhile_append_dropWhile]
  · rintro ⟨blanks, brackets, inner, rest, hblanks, hopens, hinner, rfl, htext⟩
    refine ⟨brackets, inner, rest, hopens, hinner, ?_, htext⟩
    rw [trimStart_append hblanks]
    rcases hopens with rfl | ⟨rfl, -⟩ <;> exact trimStart_cons (by decide) _

theorem headerText?_trimStart_eq_none_iff {line : List Char} :
    headerText? (trimStart line) = none ↔ ∀ text, ¬IsHeader line text := by
  simp only [Option.eq_none_iff_forall_ne_some, ne_eq, headerText?_trimStart_iff]

theorem isKeyLine_trimStart_iff {line key : List Char} :
    isKeyLine key (trimStart line) = true ↔ IsAssignment line key :=
  isKeyLine_iff

/-- A header names one table. -/
theorem IsHeader.unique {line text other : List Char} (h : IsHeader line text)
    (hother : IsHeader line other) : text = other :=
  Option.some.inj ((headerText?_trimStart_iff.mpr h).symm.trans
    (headerText?_trimStart_iff.mpr hother))

/-! ### Where a line stands

The search keeps the header it has seen last, and this is said here by positions: no line between
that header and the line in question is a header.  There is only one such header, so what the search
keeps can be put in the place of it.
-/

/-- The header above a line, counted from zero: the nearest one, or `none` if there is none. -/
inductive IsUnder (lines : List (List Char)) (index : Nat) : Option (List Char) → Prop where
  | root (hnone : ∀ i < index, ∀ line ∈ lines[i]?, ∀ text, ¬IsHeader line text) :
      IsUnder lines index none
  | table {above : Nat} {line text : List Char} (habove : above < index)
      (hline : lines[above]? = some line) (hheader : IsHeader line text)
      (hbetween : ∀ i, above < i → i < index → ∀ line ∈ lines[i]?, ∀ text, ¬IsHeader line text) :
      IsUnder lines index (some text)

namespace IsUnder

variable {lines : List (List Char)} {index : Nat} {table? other? : Option (List Char)}

/-- There is only one nearest header. -/
theorem unique (h : IsUnder lines index table?) (hother : IsUnder lines index other?) :
    table? = other? := by
  cases h with
  | root hnone =>
      cases hother with
      | root => rfl
      | table habove hline hheader => exact absurd hheader (hnone _ habove _ hline _)
  | @table above line text habove hline hheader hbetween =>
      cases hother with
      | root hnone => exact absurd hheader (hnone _ habove _ hline _)
      | @table above' line' text' habove' hline' hheader' hbetween' =>
          rcases Nat.lt_trichotomy above above' with hlt | rfl | hlt
          · exact absurd hheader' (hbetween _ hlt habove' _ hline' _)
          · rw [hline, Option.some.injEq] at hline'
            rw [hheader.unique (hline' ▸ hheader')]
          · exact absurd hheader (hbetween' _ hlt habove _ hline _)

/-- Behind a header the lines are under it. -/
theorem behindHeader {line text : List Char} (hline : lines[index]? = some line)
    (hheader : IsHeader line text) : IsUnder lines (index + 1) (some text) :=
  .table (Nat.lt_succ_self index) hline hheader
    fun _ hgt hlt => absurd (Nat.lt_of_lt_of_le hgt (Nat.le_of_lt_succ hlt)) (Nat.lt_irrefl _)

/-- Behind any other line they are under the header that the line itself is under. -/
theorem behindOther (h : IsUnder lines index table?) {line : List Char}
    (hline : lines[index]? = some line) (hother : ∀ text, ¬IsHeader line text) :
    IsUnder lines (index + 1) table? := by
  have hhere : ∀ found ∈ lines[index]?, ∀ text, ¬IsHeader found text := by
    intro found hfound
    rw [hline, Option.mem_some_iff] at hfound
    exact hfound ▸ hother
  cases h with
  | root hnone =>
      refine .root fun i hi => ?_
      rcases Nat.lt_succ_iff_lt_or_eq.mp hi with hi | rfl
      · exact hnone i hi
      · exact hhere
  | table habove hheaderLine hheader hbetween =>
      refine .table (Nat.lt_succ_of_lt habove) hheaderLine hheader fun i hgt hi => ?_
      rcases Nat.lt_succ_iff_lt_or_eq.mp hi with hi | rfl
      · exact hbetween i hgt hi
      · exact hhere

end IsUnder

/-! ### Lines that qualify -/

/-- The numbers, counted from one, of the lines for a key of a table: for a key of the root, the
headers that name a table of that name or one below it, and for a key of any table the lines
under its header that give the key a value. -/
inductive Qualifies (lines : List (List Char)) (table? : Option (List Char)) (key : List Char) :
    Nat → Prop where
  | header {index : Nat} {line text : List Char} (hline : lines[index]? = some line)
      (hheader : IsHeader line text) (hroot : table? = none)
      (htext : text = key ∨ ∃ below, text = key ++ '.' :: below) :
      Qualifies lines table? key (index + 1)
  | assignment {index : Nat} {line : List Char} (hline : lines[index]? = some line)
      (hother : ∀ text, ¬IsHeader line text) (hunder : IsUnder lines index table?)
      (hassignment : IsAssignment line key) : Qualifies lines table? key (index + 1)

section

variable {lines : List (List Char)} {index : Nat} {table? : Option (List Char)}
  {key line : List Char}

theorem Qualifies.pos {n : Nat} (h : Qualifies lines table? key n) : 0 < n := by
  cases h <;> exact Nat.succ_pos _

theorem Qualifies.le_length {n : Nat} (h : Qualifies lines table? key n) : n ≤ lines.length := by
  cases h with
  | header hline => exact (List.getElem?_eq_some_iff.mp hline).1
  | assignment hline => exact (List.getElem?_eq_some_iff.mp hline).1

theorem qualifies_header_iff {text : List Char} (hline : lines[index]? = some line)
    (hheader : IsHeader line text) :
    Qualifies lines table? key (index + 1) ↔ table? = none ∧ headsTable key text = true := by
  rw [headsTable_iff]
  constructor
  · intro h
    cases h with
    | header hfound hheads hroot htext =>
        rw [hline, Option.some.injEq] at hfound
        subst hfound
        exact ⟨hroot, hheader.unique hheads ▸ htext⟩
    | assignment hfound hother =>
        rw [hline, Option.some.injEq] at hfound
        exact absurd hheader (hfound ▸ hother text)
  · rintro ⟨hroot, htext⟩
    exact .header hline hheader hroot htext

theorem qualifies_other_iff {current? : Option (List Char)} (hline : lines[index]? = some line)
    (hother : ∀ text, ¬IsHeader line text) (hunder : IsUnder lines index current?) :
    Qualifies lines table? key (index + 1) ↔
      current? = table? ∧ isKeyLine key (trimStart line) = true := by
  rw [isKeyLine_trimStart_iff]
  constructor
  · intro h
    cases h with
    | header hfound hheader =>
        rw [hline, Option.some.injEq] at hfound
        exact absurd hheader (hfound ▸ hother _)
    | assignment hfound _ htable hassignment =>
        rw [hline, Option.some.injEq] at hfound
        subst hfound
        exact ⟨hunder.unique htable, hassignment⟩
  · rintro ⟨rfl, hassignment⟩
    exact .assignment hline hother hunder hassignment

end

/-! ### The search -/

/-- What comes of a search for the first number above `behind` that has a property. -/
def IsFirst (P : Nat → Prop) (behind : Nat) : Option Nat → Prop
  | some n => IsLeast {m | behind < m ∧ P m} n
  | none => ∀ m, behind < m → ¬P m

section

variable {P : Nat → Prop} {behind : Nat}

theorem isFirst_here (h : P (behind + 1)) : IsFirst P behind (some (behind + 1)) :=
  ⟨⟨Nat.lt_succ_self behind, h⟩, fun _ hm => hm.1⟩

/-- A number without the property is passed over. -/
theorem IsFirst.pass {found? : Option Nat} (h : IsFirst P (behind + 1) found?)
    (hhere : ¬P (behind + 1)) : IsFirst P behind found? := by
  have hlater : ∀ {m}, behind < m → P m → behind + 1 < m := by
    intro m hm hP
    refine Nat.lt_of_le_of_ne hm ?_
    rintro rfl
    exact hhere hP
  cases found? with
  | some n => exact ⟨⟨Nat.lt_of_succ_lt h.1.1, h.1.2⟩, fun m hm => h.2 ⟨hlater hm.1 hm.2, hm.2⟩⟩
  | none => exact fun m hm hP => h m (hlater hm hP) hP

theorem IsFirst.eq_some_iff {found? : Option Nat} (h : IsFirst P 0 found?) (hpos : ∀ n, P n → 0 < n)
    (n : Nat) : found? = some n ↔ IsLeast {m | P m} n := by
  have hset : {m | 0 < m ∧ P m} = {m | P m} :=
    Set.ext fun m => ⟨And.right, fun hm => ⟨hpos m hm, hm⟩⟩
  cases found? with
  | some found =>
      have hleast : IsLeast {m | P m} found := hset ▸ h
      rw [Option.some.injEq]
      exact ⟨fun hsame => hsame ▸ hleast, hleast.unique⟩
  | none =>
      exact ⟨nofun, fun hn => absurd hn.1 (h n (hpos n hn.1))⟩

theorem IsFirst.eq_none_iff {found? : Option Nat} (h : IsFirst P 0 found?)
    (hpos : ∀ n, P n → 0 < n) : found? = none ↔ ∀ n, ¬P n := by
  cases found? with
  | some found => exact ⟨nofun, fun hnone => absurd h.1.2 (hnone found)⟩
  | none => exact ⟨fun _ n hn => h n (hpos n hn) hn, fun _ => rfl⟩

end

/-- Behind any lines the search finds the first of the others that qualifies, if it has kept the
header that they are under. -/
theorem keyLineFrom_isFirst {table? current? : Option (List Char)} {key : List Char}
    {passed rest : List (List Char)} (hunder : IsUnder (passed ++ rest) passed.length current?) :
    IsFirst (Qualifies (passed ++ rest) table? key) passed.length
      (keyLineFrom table? key (passed.length + 1) current? rest) := by
  induction rest generalizing passed current? with
  | nil =>
      intro m hm hqualifies
      have hlast := hqualifies.le_length
      rw [List.append_nil] at hlast
      omega
  | cons line more ih =>
      have hline : (passed ++ line :: more)[passed.length]? = some line := by simp
      have hmore : ∀ {next?}, IsUnder (passed ++ line :: more) (passed.length + 1) next? →
          IsFirst (Qualifies (passed ++ line :: more) table? key) (passed.length + 1)
            (keyLineFrom table? key (passed.length + 1 + 1) next? more) := by
        intro next? hnext
        have hrest := @ih next? (passed ++ [line])
        simp only [List.append_assoc, List.singleton_append, List.length_append,
          List.length_singleton] at hrest
        exact hrest hnext
      rw [keyLineFrom]
      cases htext : headerText? (trimStart line) with
      | some text =>
          have hheader : IsHeader line text := headerText?_trimStart_iff.mp htext
          have hqualifies : Qualifies _ table? key (passed.length + 1) ↔ _ :=
            qualifies_header_iff hline hheader
          by_cases hstop : table? = none ∧ headsTable key text = true
          · simpa [hstop] using isFirst_here (hqualifies.mpr hstop)
          · have hgo := (hmore (.behindHeader hline hheader)).pass (mt hqualifies.mp hstop)
            simpa [hstop] using hgo
      | none =>
          have hother : ∀ text, ¬IsHeader line text := headerText?_trimStart_eq_none_iff.mp htext
          have hqualifies : Qualifies _ table? key (passed.length + 1) ↔ _ :=
            qualifies_other_iff hline hother hunder
          by_cases hstop : current? = table? ∧ isKeyLine key (trimStart line) = true
          · simpa [hstop] using isFirst_here (hqualifies.mpr hstop)
          · have hgo := (hmore (hunder.behindOther hline hother)).pass (mt hqualifies.mp hstop)
            simpa [hstop] using hgo

/-- **The search finds the first line that qualifies**, and finds nothing only if no line does. -/
theorem keyLine?_first (content : List Char) (table : Option String) (key : String) :
    (∀ n, keyLine? content table key = some n ↔
      IsLeast {m | Qualifies (lines content) (table.map String.toList) key.toList m} n) ∧
    (keyLine? content table key = none ↔
      ∀ n, ¬Qualifies (lines content) (table.map String.toList) key.toList n) := by
  have htop : IsUnder ([] ++ lines content) ([] : List (List Char)).length none :=
    .root fun _ hi => absurd hi (Nat.not_lt_zero _)
  have hfirst : IsFirst (Qualifies (lines content) (table.map String.toList) key.toList) 0
      (keyLine? content table key) := keyLineFrom_isFirst htop
  exact ⟨hfirst.eq_some_iff fun _ => Qualifies.pos, hfirst.eq_none_iff fun _ => Qualifies.pos⟩

-- One key in a table and in the root, where a header below a table of that name comes first.
example :
    let content := "[a]\nb = 1\n[[ b.c ] # \nb = 2\n[b]\n".toList
    keyLine? content (some "a") "b" = some 2 ∧ keyLine? content none "b" = some 3 := by
  decide +kernel

end Salutation.Config
