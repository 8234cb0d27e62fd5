/-
What the search for a key's line makes of one line.

The search looks at characters, and whether a line names a key or a table is said here in
terms of what is written: a line gives a value to a key exactly if it is the key, blanks and
an equals sign in front of something, and a line with a bracket names a table by what stands
between the brackets.  For bare keys there is no more to it, because nothing that can stand
behind a bare key on its line continues it.
-/
import Salutation.Config.Load
import Salutation.Proofs.Toml.Statement

namespace Salutation

open Toml Text

/-! ### Blanks -/

theorem isBlank_of_isSpace {c : Char} (h : isSpace c = true) : isBlank c = true := by
  simp only [isSpace, Bool.or_eq_true, decide_eq_true_eq] at h
  rcases h with rfl | rfl <;> rfl

theorem isAlphanum_cases {c : Char} (h : c.isAlphanum = true) :
    (0x41 ≤ c.toNat ∧ c.toNat ≤ 0x5a ∨ 0x61 ≤ c.toNat ∧ c.toNat ≤ 0x7a) ∨
      0x30 ≤ c.toNat ∧ c.toNat ≤ 0x39 := by
  have hranges : (decide ('A'.val ≤ c.val ∧ c.val ≤ 'Z'.val) ||
      (decide ('a'.val ≤ c.val) && decide (c.val ≤ 'z'.val)) ||
      (decide ('0'.val ≤ c.val) && decide (c.val ≤ '9'.val))) = true := h
  simp only [Bool.or_eq_true, Bool.and_eq_true, decide_eq_true_eq,
    UInt32.le_iff_toNat_le] at hranges
  exact hranges

theorem isBare_of_isBlank {c : Char} (h : isBlank c = true) : isBare c = false := by
  by_contra hbare
  simp only [isBare, Bool.not_eq_false, Bool.or_eq_true, decide_eq_true_eq] at hbare
  rcases hbare with (halphanum | rfl) | rfl
  · have hranges := isAlphanum_cases halphanum
    simp only [isBlank, Bool.or_eq_true, Bool.and_eq_true, decide_eq_true_eq, beq_iff_eq] at h
    omega
  · exact absurd h (by decide)
  · exact absurd h (by decide)

theorem trimStart_append {blanks : List Char} (h : ∀ c ∈ blanks, isBlank c = true)
    (rest : List Char) : trimStart (blanks ++ rest) = trimStart rest :=
  List.dropWhile_append_of_pos h

theorem trimStart_cons {c : Char} (h : isBlank c = false) (rest : List Char) :
    trimStart (c :: rest) = c :: rest :=
  List.dropWhile_cons_of_neg (by simp [h])

theorem trimStart_of_not_blank {text : List Char} (h : ∀ c ∈ text, isBlank c = false) :
    trimStart text = text := by
  cases text with
  | nil => rfl
  | cons c more => exact trimStart_cons (h c List.mem_cons_self) more

theorem trim_of_not_blank {text : List Char} (h : ∀ c ∈ text, isBlank c = false) :
    trim text = text := by
  have hreverse : trimStart text.reverse = text.reverse :=
    trimStart_of_not_blank fun c hc => h c (List.mem_reverse.mp hc)
  rw [trim, trimStart_of_not_blank h]
  exact (congrArg List.reverse hreverse).trans (List.reverse_reverse text)

/-- A text is its blanks at both ends, and what is left without them. -/
theorem exists_trim (text : List Char) : ∃ front back, (∀ c ∈ front, isBlank c = true) ∧
    (∀ c ∈ back, isBlank c = true) ∧ text = front ++ (trim text ++ back) := by
  refine ⟨text.takeWhile isBlank, ((trimStart text).reverse.takeWhile isBlank).reverse,
    fun c hc => List.mem_takeWhile_imp hc, fun c hc => ?_, ?_⟩
  · exact List.mem_takeWhile_imp (List.mem_reverse.mp hc)
  · have hend : trimStart text =
        trim text ++ ((trimStart text).reverse.takeWhile isBlank).reverse := by
      rw [trim, trimEnd, ← List.reverse_append, List.takeWhile_append_dropWhile,
        List.reverse_reverse]
    rw [← hend, trimStart, List.takeWhile_append_dropWhile]

/-! ### Bare keys -/

namespace Toml

section

variable {key : List Char} (hkey : IsBareKey key)

include hkey

/-- A bare key is not preceded by blanks. -/
theorem IsBareKey.trimStart (rest : List Char) : Text.trimStart (key ++ rest) = key ++ rest := by
  obtain ⟨c, more, rfl, hc⟩ := hkey.head
  refine trimStart_cons ?_ _
  rw [← Bool.not_eq_true]
  intro hblank
  rw [isBare_of_isBlank hblank] at hc
  cases hc

end

end Toml

namespace Config

/-! ### Headers -/

theorem headerText?_of_head {line : List Char} (h : line.head? ≠ some '[') :
    headerText? line = none := by
  unfold headerText?
  split
  · exact absurd rfl h
  · rfl

/-- A header line names what stands before its first closing bracket. -/
theorem headerText?_eq {line : List Char} (h : line.head? = some '[') :
    headerText? line = if ']' ∈ behindBrackets line then
      some (trim ((behindBrackets line).takeWhile (· ≠ ']'))) else none := by
  obtain ⟨rest, rfl⟩ := List.head?_eq_some_iff.mp h
  unfold headerText? behindBrackets
  cases rest with
  | nil => rfl
  | cons c more =>
      by_cases hc : c = '['
      · subst hc
        rfl
      · simp [hc]

/-- What opens a header: two brackets, or one that has no second one behind it. -/
def OpensHeader (brackets inside : List Char) : Prop :=
  brackets = ['[', '['] ∨ brackets = ['['] ∧ inside.head? ≠ some '['

/-- Whether there is a second bracket is seen at the first character behind the first one. -/
theorem OpensHeader.congr {brackets inside other : List Char} (h : OpensHeader brackets inside)
    (hsame : other.head? = inside.head?) : OpensHeader brackets other := by
  rwa [OpensHeader, hsame]

theorem behindBrackets_append {brackets inside : List Char} (h : OpensHeader brackets inside) :
    behindBrackets (brackets ++ inside) = inside := by
  rcases h with rfl | ⟨rfl, hinside⟩
  · rfl
  · cases inside with
    | nil => rfl
    | cons c more =>
        have hc : c ≠ '[' := by simpa using hinside
        simp [behindBrackets, hc]

theorem exists_opensHeader {line : List Char} (h : line.head? = some '[') :
    ∃ brackets, OpensHeader brackets (behindBrackets line) ∧
      line = brackets ++ behindBrackets line := by
  obtain ⟨rest, rfl⟩ := List.head?_eq_some_iff.mp h
  by_cases hsecond : rest.head? = some '['
  · obtain ⟨inside, rfl⟩ := List.head?_eq_some_iff.mp hsecond
    exact ⟨['[', '['], Or.inl rfl, rfl⟩
  · have hopens : OpensHeader ['['] rest := Or.inr ⟨rfl, hsecond⟩
    have hbehind : behindBrackets ('[' :: rest) = rest := behindBrackets_append hopens
    rw [hbehind]
    exact ⟨['['], hopens, rfl⟩

theorem takeWhile_closing (inside more : List Char) :
    (inside ++ ']' :: more).takeWhile (· ≠ ']') = inside.takeWhile (· ≠ ']') := by
  rw [List.takeWhile_append]
  split
  case isTrue hall =>
    rw [(List.takeWhile_prefix _).eq_of_length hall]
    simp
  case isFalse => rfl

theorem takeWhile_of_closing {inner : List Char} (h : ']' ∉ inner) (rest : List Char) :
    (inner ++ ']' :: rest).takeWhile (· ≠ ']') = inner := by
  rw [takeWhile_closing, List.takeWhile_eq_self_iff]
  intro c hc
  have hne : c ≠ ']' := fun hsame => h (hsame ▸ hc)
  simpa using hne

/-- A line is a header if brackets open it and there is a closing one.  What counts is the first
closing one, and what stands in front of it without blanks at its ends. -/
theorem headerText?_eq_some_iff {line text : List Char} :
    headerText? line = some text ↔ ∃ brackets inner rest,
      OpensHeader brackets (inner ++ ']' :: rest) ∧ ']' ∉ inner ∧
        line = brackets ++ (inner ++ ']' :: rest) ∧ text = trim inner := by
  constructor
  · intro h
    have hopening : line.head? = some '[' := by
      by_contra hother
      rw [headerText?_of_head hother] at h
      cases h
    rw [headerText?_eq hopening] at h
    split at h
    case isTrue hclosing =>
      obtain ⟨inner, rest, hbehind, hinner⟩ := List.eq_append_cons_of_mem hclosing
      obtain ⟨brackets, hopens, hline⟩ := exists_opensHeader hopening
      rw [hbehind, takeWhile_of_closing hinner, Option.some.injEq] at h
      rw [hbehind] at hopens hline
      exact ⟨brackets, inner, rest, hopens, hinner, hline, h.symm⟩
    case isFalse => cases h
  · rintro ⟨brackets, inner, rest, hopens, hinner, rfl, rfl⟩
    have hopening : (brackets ++ (inner ++ ']' :: rest)).head? = some '[' := by
      rcases hopens with rfl | ⟨rfl, -⟩ <;> rfl
    rw [headerText?_eq hopening, behindBrackets_append hopens, if_pos (by simp),
      takeWhile_of_closing hinner]

/-- A header names what stands between its brackets, if no bracket and no blank does. -/
theorem headerText?_of_not_blank {name : List Char} (hopening : name.head? ≠ some '[')
    (hclosing : ']' ∉ name) (hblank : ∀ c ∈ name, isBlank c = false) (rest : List Char) :
    headerText? ('[' :: (name ++ ']' :: rest)) = some name := by
  have hopens : OpensHeader ['['] (name ++ ']' :: rest) := by
    refine Or.inr ⟨rfl, ?_⟩
    cases name with
    | nil => simp
    | cons c more => exact hopening
  exact headerText?_eq_some_iff.mpr
    ⟨['['], name, rest, hopens, hclosing, rfl, (trim_of_not_blank hblank).symm⟩

/-- No character of a bare key is blank. -/
theorem isBlank_of_isBare {c : Char} (h : isBare c = true) : isBlank c = false := by
  by_contra hblank
  rw [isBare_of_isBlank (by simpa using hblank)] at h
  cases h

/-- Between the brackets of a header stands its key. -/
theorem headerText?_bare {key : List Char} (hkey : IsBareKey key) (rest : List Char) :
    headerText? ('[' :: (key ++ ']' :: rest)) = some key := by
  obtain ⟨c, more, rfl, hc⟩ := hkey.head
  refine headerText?_of_not_blank ?_ (hkey.not_mem (by decide))
    (fun d hd => isBlank_of_isBare (hkey.isBare hd)) rest
  rintro hopening
  cases hopening
  exact absurd hc (by decide)

/-- A header names a table of the root if it is the table's key, perhaps with a point behind it
and more. -/
theorem headsTable_iff {key text : List Char} :
    headsTable key text = true ↔ text = key ∨ ∃ below, text = key ++ '.' :: below := by
  have hbelow : (key ++ ['.']).isPrefixOf text = true ↔ ∃ below, text = key ++ '.' :: below := by
    rw [List.isPrefixOf_iff_prefix]
    constructor
    · rintro ⟨below, rfl⟩
      exact ⟨below, by simp⟩
    · rintro ⟨below, rfl⟩
      exact ⟨below, by simp⟩
  rw [headsTable, Bool.or_eq_true, decide_eq_true_eq, hbelow]

/-- A header without points names no table below another one. -/
theorem headsTable_of_not_mem {key header : List Char} (h : '.' ∉ header) :
    headsTable key header = decide (header = key) := by
  rw [Bool.eq_iff_iff, headsTable_iff, decide_eq_true_eq, or_iff_left]
  rintro ⟨below, rfl⟩
  exact h (by simp)

/-! ### Keys with values -/

/-- A line gives a value to a key if it is the key, blanks and an equals sign. -/
theorem isKeyLine_iff {key line : List Char} :
    isKeyLine key line = true ↔
      ∃ blanks more, (∀ c ∈ blanks, isBlank c = true) ∧ line = key ++ (blanks ++ '=' :: more) := by
  unfold isKeyLine
  rw [Bool.and_eq_true, List.isPrefixOf_iff_prefix, decide_eq_true_eq]
  constructor
  · rintro ⟨⟨rest, rfl⟩, hhead⟩
    rw [List.drop_left] at hhead
    obtain ⟨more, hmore⟩ := List.head?_eq_some_iff.mp hhead
    refine ⟨rest.takeWhile isBlank, more, fun c hc => List.mem_takeWhile_imp hc, ?_⟩
    rw [← hmore, trimStart, List.takeWhile_append_dropWhile]
  · rintro ⟨blanks, more, hblanks, rfl⟩
    refine ⟨List.prefix_append _ _, ?_⟩
    rw [List.drop_left, trimStart_append hblanks, trimStart_cons (by decide)]
    rfl

/-- A line that gives a value to a bare key starts with that key. -/
theorem takeWhile_of_isKeyLine {key line : List Char} (hkey : IsBareKey key)
    (h : isKeyLine key line = true) : line.takeWhile isBare = key := by
  obtain ⟨blanks, more, hblanks, rfl⟩ := isKeyLine_iff.mp h
  refine (hkey.span fun c hc => ?_).1
  cases blanks with
  | nil =>
      cases hc
      rfl
  | cons d blanks =>
      cases hc
      exact isBare_of_isBlank (hblanks c List.mem_cons_self)

/-- The line of one bare key is that of no other. -/
theorem isKeyLine_bare {key other spaces : List Char} (hkey : IsBareKey key)
    (hother : IsBareKey other) (hspaces : ∀ c ∈ spaces, isSpace c = true) (rest : List Char) :
    isKeyLine key (other ++ (spaces ++ '=' :: rest)) = decide (key = other) := by
  have hblanks : ∀ c ∈ spaces, isBlank c = true := fun c hc => isBlank_of_isSpace (hspaces c hc)
  have hline : isKeyLine other (other ++ (spaces ++ '=' :: rest)) = true :=
    isKeyLine_iff.mpr ⟨spaces, rest, hblanks, rfl⟩
  by_cases hsame : key = other
  · rw [decide_eq_true hsame, hsame, hline]
  · rw [decide_eq_false hsame, ← Bool.not_eq_true]
    intro h
    exact hsame ((takeWhile_of_isKeyLine hkey h).symm.trans (takeWhile_of_isKeyLine hother hline))

/-- A line that does not start with a character of a bare key gives no value to one. -/
theorem isKeyLine_of_head {key line : List Char} (hkey : IsBareKey key)
    (hline : ∀ c ∈ line.head?, isBare c = false) : isKeyLine key line = false := by
  rw [← Bool.not_eq_true]
  intro h
  have hstart := takeWhile_of_isKeyLine hkey h
  cases line with
  | nil => exact hkey.nonempty hstart.symm
  | cons c more =>
      rw [List.takeWhile_cons_of_neg (by simp [hline c rfl])] at hstart
      exact hkey.nonempty hstart.symm

/-! ### Lines that the search passes over -/

/-- A line that reads neither as a header nor as a line of the key. -/
def IsPassed (key line : List Char) : Prop :=
  headerText? (trimStart line) = none ∧ isKeyLine key (trimStart line) = false

instance (key line : List Char) : Decidable (IsPassed key line) :=
  inferInstanceAs (Decidable (_ ∧ _))

/-- A line with nothing but a comment is passed over. -/
theorem isPassed_of_nothing {key line : List Char} (hkey : IsBareKey key)
    (hline : ∀ c ∈ (trimStart line).head?, c = '#') : IsPassed key line := by
  refine ⟨headerText?_of_head fun hopen => ?_, isKeyLine_of_head hkey fun c hc => ?_⟩
  · exact absurd (hline _ hopen) (by decide)
  · rw [hline c hc]
    rfl

/-- The search goes on behind the lines that it passes over, with the same table open. -/
theorem keyLineFrom_append {table? : Option (List Char)} {key : List Char}
    {passed : List (List Char)} (hpassed : ∀ line ∈ passed, IsPassed key line)
    (number : Nat) (current? : Option (List Char)) (more : List (List Char)) :
    keyLineFrom table? key number current? (passed ++ more) =
      keyLineFrom table? key (number + passed.length) current? more := by
  induction passed generalizing number with
  | nil => rfl
  | cons line passed ih =>
      obtain ⟨⟨hheader, hkeyLine⟩, hmore⟩ := List.forall_mem_cons.mp hpassed
      rw [List.cons_append, keyLineFrom]
      simp only [hheader, hkeyLine, Bool.and_false, Bool.false_eq_true, if_false]
      rw [ih hmore, List.length_cons, Nat.add_assoc, Nat.add_comm 1]

theorem keyLineFrom_passed {table? : Option (List Char)} {key line : List Char}
    (hline : IsPassed key line) (number : Nat) (current? : Option (List Char))
    (more : List (List Char)) :
    keyLineFrom table? key number current? (line :: more) =
      keyLineFrom table? key (number + 1) current? more :=
  keyLineFrom_append (List.forall_mem_singleton.mpr hline) number current? more

/-! ### Paths -/

theorem splitAtLastPoint_append (table : List Char) {key : List Char} (h : '.' ∉ key) :
    splitAtLastPoint (table ++ '.' :: key) = (some table, key) := by
  have hafter : ((table ++ '.' :: key).reverse.takeWhile (· ≠ '.')).reverse = key := by
    rw [List.reverse_append, List.reverse_cons, List.append_assoc,
      List.takeWhile_append_of_pos]
    · simp
    · intro c hc
      have hne : c ≠ '.' := fun hsame => h (hsame ▸ List.mem_reverse.mp hc)
      simpa using hne
  have hlength : (table ++ '.' :: key).length - key.length - 1 = table.length := by
    simp only [List.length_append, List.length_cons]
    omega
  unfold splitAtLastPoint
  dsimp only
  rw [hafter, if_pos (by simp), hlength, List.take_left]

/-- A path names its last key, and the table in front of it if there is one. -/
theorem locate_path (table? : Option (List Char)) {key : List Char} (h : '.' ∉ key) :
    locate ((table?.map String.ofList).toList ++ [String.ofList key]) =
      (table?.map String.ofList, String.ofList key) := by
  cases table? with
  | none => simp [locate, splitAtLastPoint, h]
  | some table => simp [locate, splitAtLastPoint_append table h]

/-- The warning for a key gives the line that the search finds for the key and its table. -/
theorem warn_path (file : Path) (lines : List (List Char)) (table? : Option (List Char))
    {key : List Char} (h : '.' ∉ key) :
    warn file lines ((table?.map String.ofList).toList ++ [String.ofList key]) =
      ⟨String.ofList key, file, keyLineFrom table? key 1 none lines,
        suggestion? (table?.map String.ofList) (String.ofList key)⟩ := by
  have htable : (table?.map String.ofList).map String.toList = table? := by
    cases table? <;> simp
  simp only [warn, locate_path table? h, keyLineAmong?, htable, String.toList_ofList]

end Config

end Salutation
