/-
Reading a document line by line.

The reader of documents takes fuel.  `Reads` says without it which statements a text holds:
it follows the lines of the text, and whatever holds of one line in front of any rest can be
put in front of a text that is already read.  A statement takes at least one character, so
the length of the text is fuel enough, and what `Reads` derives is what the reader finds.

The lines are those with a bare key: the header of a table, and a key with its value.  What
the value is does not matter as long as the reader of values takes it up to the end of the
line.
-/
import Mathlib.Data.List.TakeWhile
import Salutation.Proofs.Toml.Refusal
import Salutation.Proofs.Toml.Writer
import Salutation.Toml.Document

namespace Salutation.Toml

/-! ### Lines -/

/-- The statements of a text, from its first line to its last. -/
inductive Reads : List Char → List Statement → Prop where
  | done {text : List Char} (hend : skipSpaces text = []) : Reads text []
  | blank {text rest : List Char} {all : List Statement}
      (hblank : newline? (skipSpaces text) = some rest) (hrest : Reads rest all) :
      Reads text all
  | comment {text more rest : List Char} {all : List Statement}
      (htext : skipSpaces text = '#' :: more) (hend : lineEnd ('#' :: more) = .ok rest)
      (hshorter : rest.length ≤ more.length) (hrest : Reads rest all) : Reads text all
  | step {text more rest : List Char} {c : Char} {first : Statement} {all : List Statement}
      (htext : skipSpaces text = c :: more) (hcomment : c ≠ '#')
      (hblank : newline? (c :: more) = none) (hfirst : statement (c :: more) = .ok (first, rest))
      (hshorter : rest.length ≤ more.length) (hrest : Reads rest all) :
      Reads text (first :: all)

theorem length_skipSpaces_le (text : List Char) : (skipSpaces text).length ≤ text.length :=
  List.length_dropWhile_le isSpace text

theorem length_of_newline? {text rest : List Char} (h : newline? text = some rest) :
    rest.length < text.length := by
  rcases newline?_cases h with rfl | rfl
  · simp
  · simp only [List.length_cons]
    omega

/-- **With more fuel than it has characters, a text is read to its end.** -/
theorem statements_of_reads {text : List Char} {all : List Statement} (h : Reads text all)
    {fuel : Nat} (hfuel : text.length < fuel) : statements fuel text = (all, none) := by
  induction h generalizing fuel with
  | done hend =>
      obtain ⟨fuel, rfl⟩ := Nat.exists_eq_add_one_of_ne_zero (Nat.ne_zero_of_lt hfuel)
      simp [statements, hend]
  | @blank text rest all hblank hrest ih =>
      obtain ⟨fuel, rfl⟩ := Nat.exists_eq_add_one_of_ne_zero (Nat.ne_zero_of_lt hfuel)
      have hshort := length_of_newline? hblank
      have hskip := length_skipSpaces_le text
      have hmore : statements fuel rest = (all, none) := ih (by omega)
      cases hstart : skipSpaces text with
      | nil => simp [hstart, newline?] at hblank
      | cons c more =>
          have hcomment : c ≠ '#' := by
            rintro rfl
            simp [hstart, newline?] at hblank
          rw [hstart] at hblank
          simp [statements, hstart, hcomment, hblank, hmore]
  | @comment text more rest all htext hend hshorter hrest ih =>
      obtain ⟨fuel, rfl⟩ := Nat.exists_eq_add_one_of_ne_zero (Nat.ne_zero_of_lt hfuel)
      have hskip := length_skipSpaces_le text
      rw [htext, List.length_cons] at hskip
      have hmore : statements fuel rest = (all, none) := ih (by omega)
      simp [statements, htext, hend, hmore]
  | @step text more rest c first all htext hcomment hblank hfirst hshorter hrest ih =>
      obtain ⟨fuel, rfl⟩ := Nat.exists_eq_add_one_of_ne_zero (Nat.ne_zero_of_lt hfuel)
      have hskip := length_skipSpaces_le text
      rw [htext, List.length_cons] at hskip
      have hmore : statements fuel rest = (all, none) := ih (by omega)
      simp [statements, htext, hcomment, hblank, hfirst, hmore]

theorem skipByteOrderMark_eq {text : List Char} (h : text.head? ≠ some '\uFEFF') :
    skipByteOrderMark text = text := by
  unfold skipByteOrderMark
  split
  · exact absurd rfl h
  · rfl

/-- A document is the table that its statements make. -/
theorem document_of_reads {text : List Char} {all : List Statement} {table : Table}
    (hmark : text.head? ≠ some '\uFEFF') (h : Reads text all) (htable : assemble all = .ok table) :
    document text = .ok table := by
  have hall := statements_of_reads h (Nat.lt_succ_self _)
  simp [document, skipByteOrderMark_eq hmark, hall, htable]

/-! ### Keys -/

theorem not_mem_of_all {p : Char → Bool} {c : Char} {text : List Char} (hp : p c = false)
    (htext : ∀ d ∈ text, p d = true) : c ∉ text := by
  intro hmem
  rw [htext c hmem] at hp
  cases hp

theorem skipSpaces_append {spaces : List Char} (h : ∀ c ∈ spaces, isSpace c = true)
    (rest : List Char) : skipSpaces (spaces ++ rest) = skipSpaces rest :=
  List.dropWhile_append_of_pos h

theorem skipSpaces_cons {c : Char} (h : isSpace c = false) (rest : List Char) :
    skipSpaces (c :: rest) = c :: rest :=
  List.dropWhile_cons_of_neg (by simp [h])

/-- Spaces in front of a text do not matter. -/
theorem Reads.indent {spaces text : List Char} {all : List Statement}
    (hspaces : ∀ c ∈ spaces, isSpace c = true) (h : Reads text all) : Reads (spaces ++ text) all := by
  have hskip := skipSpaces_append hspaces text
  cases h with
  | done hend => exact .done (hskip.trans hend)
  | blank hblank hrest => exact .blank (by rwa [hskip]) hrest
  | comment htext hend hshorter hrest => exact .comment (hskip.trans htext) hend hshorter hrest
  | step htext hcomment hblank hfirst hshorter hrest =>
      exact .step (hskip.trans htext) hcomment hblank hfirst hshorter hrest

theorem isBare_of_isSpace {c : Char} (h : isSpace c = true) : isBare c = false := by
  simp only [isSpace, Bool.or_eq_true, decide_eq_true_eq] at h
  rcases h with rfl | rfl <;> rfl

/-- A character of a bare key starts nothing else. -/
theorem isBare_other {c : Char} (h : isBare c = true) :
    isSpace c = false ∧ c ≠ '"' ∧ c ≠ '\'' ∧ c ≠ '[' ∧ c ≠ '#' ∧ c ≠ '\n' ∧ c ≠ '\r' := by
  refine ⟨?_, ?_⟩
  · by_contra hspace
    rw [isBare_of_isSpace (by simpa using hspace)] at h
    exact Bool.false_ne_true h
  · refine ⟨?_, ?_, ?_, ?_, ?_, ?_⟩ <;> rintro rfl <;> exact absurd h (by decide)

/-- A key made of letters, digits, underscores and hyphens. -/
structure IsBareKey (key : List Char) : Prop where
  nonempty : key ≠ []
  bare : key.all isBare = true

instance (key : List Char) : Decidable (IsBareKey key) :=
  decidable_of_iff (key ≠ [] ∧ key.all isBare = true)
    ⟨fun h => ⟨h.1, h.2⟩, fun h => ⟨h.nonempty, h.bare⟩⟩

section

variable {key : List Char} (hkey : IsBareKey key)

include hkey

theorem IsBareKey.isBare {c : Char} (hc : c ∈ key) : isBare c = true :=
  List.all_eq_true.mp hkey.bare c hc

theorem IsBareKey.head : ∃ c more, key = c :: more ∧ Toml.isBare c = true := by
  cases key with
  | nil => exact absurd rfl hkey.nonempty
  | cons c more => exact ⟨c, more, rfl, hkey.isBare List.mem_cons_self⟩

theorem IsBareKey.not_mem {c : Char} (hc : Toml.isBare c = false) : c ∉ key := by
  intro hmem
  rw [hkey.isBare hmem] at hc
  cases hc

theorem IsBareKey.skipSpaces (rest : List Char) : Toml.skipSpaces (key ++ rest) = key ++ rest := by
  obtain ⟨c, more, rfl, hc⟩ := hkey.head
  exact skipSpaces_cons (isBare_other hc).1 _

/-- A bare key ends at the first character that is not one of its own. -/
theorem IsBareKey.span {rest : List Char} (hrest : ∀ c ∈ rest.head?, Toml.isBare c = false) :
    (key ++ rest).takeWhile Toml.isBare = key ∧ (key ++ rest).dropWhile Toml.isBare = rest := by
  have hstop : rest.takeWhile Toml.isBare = [] ∧ rest.dropWhile Toml.isBare = rest := by
    cases rest with
    | nil => exact ⟨rfl, rfl⟩
    | cons c more => simp [hrest c rfl]
  rw [List.takeWhile_append_of_pos fun c hc => hkey.isBare hc,
    List.dropWhile_append_of_pos fun c hc => hkey.isBare hc, hstop.1, hstop.2]
  exact ⟨List.append_nil key, rfl⟩

theorem simpleKey?_of_bare {rest : List Char} (hrest : ∀ c ∈ rest.head?, Toml.isBare c = false) :
    simpleKey? (key ++ rest) =
      .ok (some (⟨String.ofList key, ⟨key ++ rest, rest⟩⟩, rest)) := by
  obtain ⟨htake, hdrop⟩ := hkey.span hrest
  obtain ⟨k, more, rfl, hk⟩ := hkey.head
  obtain ⟨-, hdouble, hsingle, -⟩ := isBare_other hk
  rw [List.cons_append] at htake hdrop
  simp [simpleKey?, hdouble, hsingle, hk, htake, hdrop]

end

section

variable {key spaces : List Char} {c : Char} (rest : List Char) (hkey : IsBareKey key)
  (hspaces : ∀ c ∈ spaces, isSpace c = true) (hc : isBare c = false) (hspace : isSpace c = false)

include hkey hspaces hc

/-- A bare key ends where its characters do. -/
theorem simpleKey?_bare :
    simpleKey? (key ++ (spaces ++ c :: rest)) = .ok (some (⟨String.ofList key,
      ⟨key ++ (spaces ++ c :: rest), spaces ++ c :: rest⟩⟩, spaces ++ c :: rest)) := by
  refine simpleKey?_of_bare hkey fun d hd => ?_
  cases spaces with
  | nil =>
      cases hd
      exact hc
  | cons s more =>
      cases hd
      exact isBare_of_isSpace (hspaces _ List.mem_cons_self)

include hspace

/-- A path of one bare key ends before the first character that cannot continue it. -/
theorem keyPath?_bare (hpoint : c ≠ '.') :
    keyPath? (key ++ (spaces ++ c :: rest)) = .ok (some (⟨[], ⟨String.ofList key,
      ⟨key ++ (spaces ++ c :: rest), spaces ++ c :: rest⟩⟩⟩, c :: rest)) := by
  have hsimple := simpleKey?_bare rest hkey hspaces hc
  have hstart := hkey.skipSpaces (spaces ++ c :: rest)
  have hnext : skipSpaces (spaces ++ c :: rest) = c :: rest := by
    rw [skipSpaces_append hspaces, skipSpaces_cons hspace]
  have hfrom : ∀ fuel, keyPathFrom? (fuel + 1) (key ++ (spaces ++ c :: rest)) =
      .ok (some (⟨[], ⟨String.ofList key,
        ⟨key ++ (spaces ++ c :: rest), spaces ++ c :: rest⟩⟩⟩, c :: rest)) := by
    intro fuel
    rw [keyPathFrom?, hstart, hsimple]
    simp [bind, Except.bind, pure, Except.pure, hnext, hpoint]
  rw [keyPath?, hfrom]
  simp [bind, Except.bind, pure, Except.pure, KeyPath.keys, nestingLimit]

end

/-- A path that starts with a bare key has it as its first, and goes on only behind a point. -/
theorem keyPath?_first {text key after rest : List Char} {path : KeyPath} (hkey : IsBareKey key)
    (htext : skipSpaces text = key ++ after) (hafter : ∀ c ∈ after.head?, isBare c = false)
    (h : keyPath? text = .ok (some (path, rest))) :
    ∃ more, path.keys.map (·.name) = String.ofList key :: more ∧
      ((skipSpaces after).head? ≠ some '.' → more = []) := by
  have hfrom : ∀ fuel found stop, keyPathFrom? (fuel + 1) text = .ok (some (found, stop)) →
      ∃ more, found.keys.map (·.name) = String.ofList key :: more ∧
        ((skipSpaces after).head? ≠ some '.' → more = []) := by
    intro fuel found stop hfound
    unfold keyPathFrom? at hfound
    rw [htext, simpleKey?_of_bare hkey hafter] at hfound
    obtain ⟨first?, hfirst, hfound⟩ := bind_eq_ok.mp hfound
    cases hfirst
    dsimp only at hfound
    split at hfound
    case h_1 more hpoint =>
      rw [hpoint]
      obtain ⟨others?, -, hfound⟩ := bind_eq_ok.mp hfound
      cases others? with
      | none =>
          cases hfound
          exact ⟨[], rfl, fun _ => rfl⟩
      | some others =>
          cases hfound
          exact ⟨_, rfl, fun h => absurd rfl h⟩
    case h_2 =>
      cases hfound
      exact ⟨[], rfl, fun _ => rfl⟩
  obtain ⟨path?, hpath, h⟩ := bind_eq_ok.mp h
  cases path? with
  | none => cases h
  | some found =>
      obtain ⟨found, stop⟩ := found
      dsimp only at h
      split at h
      · cases h
        exact hfrom _ _ _ hpath
      · cases h

/-! ### Statements -/

/-- A line that gives a bare key a value is an assignment, and so is read in front of what
follows it. -/
theorem reads_assignment {key spaces gap written after rest : List Char} {node : Node}
    {all : List Statement} (hkey : IsBareKey key) (hspaces : ∀ c ∈ spaces, isSpace c = true)
    (hvalue : value (skipSpaces (gap ++ written)) = .ok (node, after))
    (hend : lineEnd after = .ok rest) (hshorter : rest.length ≤ written.length)
    (hrest : Reads rest all) :
    ∃ span, Reads (key ++ (spaces ++ '=' :: (gap ++ written)))
      (.assign ⟨⟨[], ⟨String.ofList key, span⟩⟩, node⟩ :: all) := by
  have hpath := keyPath?_bare (gap ++ written) hkey hspaces (c := '=') (by decide) (by decide)
    (by decide)
  obtain ⟨hne, hall⟩ := hkey
  have hbare := List.all_eq_true.mp hall
  cases key with
  | nil => exact absurd rfl hne
  | cons k more =>
      obtain ⟨hspace, -, -, hbracket, hcomment, hfeed, hreturn⟩ :=
        isBare_other (hbare k List.mem_cons_self)
      have hfirst : statement (k :: more ++ (spaces ++ '=' :: (gap ++ written))) =
          .ok (.assign ⟨⟨[], ⟨String.ofList (k :: more),
            ⟨k :: more ++ (spaces ++ '=' :: (gap ++ written)),
              spaces ++ '=' :: (gap ++ written)⟩⟩⟩, node⟩, rest) := by
        rw [List.cons_append] at hpath ⊢
        simp [statement, hbracket, assignment?, hpath, hvalue, hend, bind, Except.bind, pure,
          Except.pure]
      refine ⟨_, Reads.step (skipSpaces_cons hspace _) hcomment ?_ hfirst ?_ hrest⟩
      · simp [newline?, hfeed, hreturn]
      · simp only [List.length_append, List.length_cons, List.append_eq]
        omega

/-- A line with a bare key between brackets is a header. -/
theorem reads_header {key after rest : List Char} {all : List Statement}
    (hkey : IsBareKey key) (hend : lineEnd after = .ok rest)
    (hshorter : rest.length ≤ after.length) (hrest : Reads rest all) :
    ∃ span keySpan, Reads ('[' :: (key ++ ']' :: after))
      (.header ⟨span, ⟨[], ⟨String.ofList key, keySpan⟩⟩, false⟩ :: all) := by
  have hnone : ∀ c ∈ ([] : List Char), isSpace c = true := by simp
  have hpath := keyPath?_bare after hkey hnone (c := ']') (by decide) (by decide) (by decide)
  obtain ⟨hne, hall⟩ := hkey
  have hbare := List.all_eq_true.mp hall
  cases key with
  | nil => exact absurd rfl hne
  | cons k more =>
      obtain ⟨-, -, -, hbracket, -⟩ := isBare_other (hbare k List.mem_cons_self)
      have hfirst : statement ('[' :: (k :: more ++ ']' :: after)) =
          .ok (.header ⟨⟨'[' :: (k :: more ++ ']' :: after), after⟩, ⟨[], ⟨String.ofList (k :: more),
            ⟨k :: more ++ ']' :: after, ']' :: after⟩⟩⟩, false⟩, rest) := by
        have hclosing : (']' :: after).drop "]".length = after := rfl
        rw [List.nil_append] at hpath
        rw [List.cons_append] at hpath ⊢
        simp [statement, header, hbracket, hpath, hclosing, hend, bind, Except.bind, pure,
          Except.pure]
      refine ⟨_, _, Reads.step (skipSpaces_cons (by decide) _) (by decide) rfl hfirst ?_ hrest⟩
      simp only [List.length_append, List.length_cons]
      omega

end Salutation.Toml
