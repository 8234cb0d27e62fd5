/-
Suggestions for unknown keys.

A key gets the closest known key of its table, if that is close enough and not the key itself,
and otherwise the place where a key of that very name belongs.  Both could depend on the order
in which the known keys are listed: of equally close keys the first is taken, and of several
places too.

That they do not comes down to two facts about the list.  The keys of one table are more than
four edits apart, so by the triangle inequality no text whatever is within two edits of two of
them; and no key is listed for two tables.  Where a list of tables has these properties
(`IsClear`), what is suggested can be said without its order (`Suggests`), and the properties
themselves do not depend on the order either.
-/
import Mathlib.Data.List.Nodup
import Salutation.Config.Decode
import Salutation.Config.Schema
import Salutation.Proofs.EditDistance

namespace Salutation.Config

open EditDistance

/-! ### Distances between keys -/

/-- The least number of byte edits that turn one text into another. -/
def IsDistance (a b : String) (n : Nat) : Prop :=
  IsLeast {n | EditsIn n (bytesOf a) (bytesOf b)} n

theorem keyDistance_eq (a b : String) : keyDistance a b = distance (bytesOf a) (bytesOf b) := by
  unfold keyDistance
  split
  case isTrue hsame => rw [hsame, distance_self]
  case isFalse => rfl

theorem isDistance_keyDistance (a b : String) : IsDistance a b (keyDistance a b) := by
  rw [keyDistance_eq]
  exact isLeast_distance (bytesOf a) (bytesOf b)

theorem IsDistance.eq {a b : String} {n : Nat} (h : IsDistance a b n) : n = keyDistance a b :=
  IsLeast.unique h (isDistance_keyDistance a b)

/-- Two texts close to a third are close to each other. -/
theorem keyDistance_le_of_le {key a b : String} {m n : Nat} (ha : keyDistance key a ≤ m)
    (hb : keyDistance key b ≤ n) : keyDistance a b ≤ m + n := by
  rw [keyDistance_eq] at ha hb ⊢
  have htriangle := distance_triangle (bytesOf a) (bytesOf key) (bytesOf b)
  rw [distance_comm (bytesOf a) (bytesOf key)] at htriangle
  omega

/-! ### The closest key

Of equally close keys the search keeps the first, and this is the only way in which the order of the
keys can be seen.  `IsNearest` does not mention it: it may hold of several keys, and that
it does not is what `IsClear` is for.
-/

theorem closest?_eq_none_iff {key : String} {keys : List String} :
    closest? key keys = none ↔ keys = [] := by
  cases keys with
  | nil => simp [closest?]
  | cons candidate more =>
      simp only [closest?, reduceCtorEq, iff_false]
      split
      · split <;> simp
      · simp

/-- The closest key is one of the keys, and none of them is closer. -/
theorem closest?_eq_some {key candidate : String} {keys : List String} {n : Nat}
    (h : closest? key keys = some (candidate, n)) :
    candidate ∈ keys ∧ n = keyDistance key candidate ∧
      ∀ other ∈ keys, n ≤ keyDistance key other := by
  induction keys generalizing candidate n with
  | nil => cases h
  | cons first more ih =>
      unfold closest? at h
      split at h
      case h_1 rest best hrest =>
        obtain ⟨hmem, hbest, hleast⟩ := ih hrest
        dsimp only at h
        split at h
        case isTrue hcloser =>
          cases h
          refine ⟨List.mem_cons_of_mem first hmem, hbest, ?_⟩
          intro other hother
          rcases List.mem_cons.mp hother with rfl | hother
          · exact Nat.le_of_lt hcloser
          · exact hleast other hother
        case isFalse hcloser =>
          cases h
          refine ⟨List.mem_cons_self, rfl, ?_⟩
          intro other hother
          rcases List.mem_cons.mp hother with rfl | hother
          · exact Nat.le_refl _
          · exact (Nat.le_of_not_lt hcloser).trans (hleast other hother)
      case h_2 hnone =>
        cases h
        obtain rfl := closest?_eq_none_iff.mp hnone
        exact ⟨List.mem_cons_self, rfl, by simp⟩

/-- One of some keys that is close to a key and not the key itself, with none of them closer. -/
structure IsNearest (keys : List String) (key candidate : String) : Prop where
  mem : candidate ∈ keys
  ne : candidate ≠ key
  closest : ∃ n ≤ 2, IsDistance key candidate n ∧
    ∀ other ∈ keys, ∀ m, IsDistance key other m → n ≤ m

theorem IsNearest.keyDistance_le {keys : List String} {key candidate : String}
    (h : IsNearest keys key candidate) : keyDistance key candidate ≤ 2 := by
  obtain ⟨n, hn, hdistance, -⟩ := h.closest
  rwa [← hdistance.eq]

theorem isNearest_of_closest? {keys : List String} {key candidate : String} {n : Nat}
    (h : closest? key keys = some (candidate, n)) (hn : n ≤ 2) (hne : candidate ≠ key) :
    IsNearest keys key candidate := by
  obtain ⟨hmem, rfl, hleast⟩ := closest?_eq_some h
  refine ⟨hmem, hne, _, hn, isDistance_keyDistance key candidate, ?_⟩
  intro other hother m hm
  rw [hm.eq]
  exact hleast other hother

/-- Only the members of a list of keys count. -/
theorem IsNearest.congr {keys others : List String} (hsame : ∀ key, key ∈ keys ↔ key ∈ others)
    {key candidate : String} (h : IsNearest keys key candidate) :
    IsNearest others key candidate := by
  obtain ⟨n, hn, hdistance, hleast⟩ := h.closest
  refine ⟨(hsame candidate).mp h.mem, h.ne, n, hn, hdistance, ?_⟩
  intro other hother
  exact hleast other ((hsame other).mpr hother)

/-! ### Tables of known keys -/

/-- What makes a list of tables unambiguous: a table is listed once, its keys are far apart, and
a key is known in one table only. -/
structure IsClear (tables : List KnownTable) : Prop where
  nodup : (tables.map (·.name)).Nodup
  far : ∀ known ∈ tables, ∀ a ∈ known.keys, ∀ b ∈ known.keys, a ≠ b → 4 < keyDistance a b
  once : ∀ known ∈ tables, ∀ other ∈ tables, ∀ key ∈ known.keys, key ∈ other.keys →
    known.name = other.name

theorem isClear_knownTables : IsClear knownTables := by
  refine ⟨by decide, ?_, by decide⟩
  decide +kernel

variable {tables : List KnownTable} {table : Option String} {key text : String}

theorem keysOf_cases (tables : List KnownTable) (table : Option String) :
    keysOf tables table = [] ∨
      ∃ known ∈ tables, known.name = table ∧ keysOf tables table = known.keys := by
  unfold keysOf
  split
  case h_1 known hfind =>
    have hname : known.name = table := by simpa using List.find?_some hfind
    exact Or.inr ⟨known, List.mem_of_find?_eq_some hfind, hname, rfl⟩
  case h_2 => exact Or.inl rfl

theorem exists_of_mem_keysOf (h : key ∈ keysOf tables table) :
    ∃ known ∈ tables, known.name = table ∧ key ∈ known.keys := by
  rcases keysOf_cases tables table with hnone | ⟨known, hmem, hname, hkeys⟩
  · rw [hnone] at h
    cases h
  · exact ⟨known, hmem, hname, hkeys ▸ h⟩

theorem IsClear.mem_keysOf (hclear : IsClear tables) :
    key ∈ keysOf tables table ↔ ∃ known ∈ tables, known.name = table ∧ key ∈ known.keys := by
  constructor
  · exact exists_of_mem_keysOf
  · rintro ⟨known, hmem, hname, hkey⟩
    unfold keysOf
    split
    case h_1 found hfind =>
      have hfound : found.name = table := by simpa using List.find?_some hfind
      have hsame : found = known := List.inj_on_of_nodup_map hclear.nodup
        (List.mem_of_find?_eq_some hfind) hmem (hfound.trans hname.symm)
      rwa [hsame]
    case h_2 hfind =>
      have hnot := List.find?_eq_none.mp hfind known hmem
      exact absurd hname (by simpa using hnot)

/-- **No text is close to two keys of a table.** -/
theorem IsClear.eq_of_close (hclear : IsClear tables) {a b : String}
    (ha : a ∈ keysOf tables table) (hb : b ∈ keysOf tables table)
    (hcloseA : keyDistance key a ≤ 2) (hcloseB : keyDistance key b ≤ 2) : a = b := by
  rcases keysOf_cases tables table with hnone | ⟨known, hmem, -, hkeys⟩
  · rw [hnone] at ha
    cases ha
  · rw [hkeys] at ha hb
    by_contra hne
    have hfar := hclear.far known hmem a ha b hb hne
    have hclose := keyDistance_le_of_le hcloseA hcloseB
    omega

/-! ### Suggestions -/

/-- What is suggested, without regard to any order. -/
inductive Suggests (tables : List KnownTable) (table : Option String) (key : String) :
    String → Prop where
  /-- A key of the table is close. -/
  | near {candidate : String} (hnear : IsNearest (keysOf tables table) key candidate) :
      Suggests tables table key candidate
  /-- No key of the table is, and the key is known elsewhere. -/
  | elsewhere {other : String}
      (hfar : ∀ candidate, ¬IsNearest (keysOf tables table) key candidate)
      (hother : some other ≠ table) (hkey : key ∈ keysOf tables (some other)) :
      Suggests tables table key (other ++ "." ++ key)

theorem exists_of_elsewhere? (h : elsewhere? tables table key = some text) :
    ∃ known ∈ tables, ∃ other, known.name = some other ∧ some other ≠ table ∧
      key ∈ known.keys ∧ text = other ++ "." ++ key := by
  obtain ⟨known, hmem, hplace⟩ := List.exists_of_findSome?_eq_some h
  split at hplace
  case h_1 other hname =>
    split at hplace
    case isTrue hfound =>
      cases hplace
      have hfound : some other ≠ table ∧ key ∈ known.keys := by simpa using hfound
      exact ⟨known, hmem, other, hname, hfound.1, hfound.2, rfl⟩
    case isFalse => cases hplace
  case h_2 => cases hplace

theorem IsClear.elsewhere?_eq_some_iff (hclear : IsClear tables) :
    elsewhere? tables table key = some text ↔
      ∃ other, some other ≠ table ∧ key ∈ keysOf tables (some other) ∧
        text = other ++ "." ++ key := by
  constructor
  · intro h
    obtain ⟨known, hmem, other, hname, hother, hkey, htext⟩ := exists_of_elsewhere? h
    exact ⟨other, hother, hclear.mem_keysOf.mpr ⟨known, hmem, hname, hkey⟩, htext⟩
  · rintro ⟨other, hother, hkey, rfl⟩
    obtain ⟨known, hmem, hname, hkey⟩ := exists_of_mem_keysOf hkey
    cases hplace : elsewhere? tables table key with
    | none =>
        have hnot := List.findSome?_eq_none_iff.mp hplace known hmem
        simp [hname, hother, hkey] at hnot
    | some place =>
        obtain ⟨found, hfound, name, hfoundName, -, hfoundKey, rfl⟩ := exists_of_elsewhere? hplace
        have hsame := hclear.once known hmem found hfound key hkey hfoundKey
        rw [hname, hfoundName, Option.some.injEq] at hsame
        rw [hsame]

theorem IsClear.suggestionAmong_of_nearest (hclear : IsClear tables) {candidate : String}
    (h : IsNearest (keysOf tables table) key candidate) :
    suggestionAmong tables table key = some candidate := by
  unfold suggestionAmong
  split
  case h_1 found n hclosest =>
    obtain ⟨hmem, hn, hleast⟩ := closest?_eq_some hclosest
    have hclose : n ≤ 2 := (hleast candidate h.mem).trans h.keyDistance_le
    obtain rfl : found = candidate :=
      hclear.eq_of_close hmem h.mem (hn ▸ hclose) h.keyDistance_le
    simp [hclose, h.ne]
  case h_2 hclosest =>
    have hmem := h.mem
    rw [closest?_eq_none_iff.mp hclosest] at hmem
    cases hmem

theorem suggestionAmong_of_far
    (h : ∀ candidate, ¬IsNearest (keysOf tables table) key candidate) :
    suggestionAmong tables table key = elsewhere? tables table key := by
  unfold suggestionAmong
  split
  case h_1 found n hclosest =>
    rw [if_neg]
    intro hfound
    have hfound : n ≤ 2 ∧ found ≠ key := by simpa using hfound
    exact h found (isNearest_of_closest? hclosest hfound.1 hfound.2)
  case h_2 => rfl

/-- From clear tables a suggestion follows without their order. -/
theorem IsClear.suggestionAmong_eq_some_iff (hclear : IsClear tables) :
    suggestionAmong tables table key = some text ↔ Suggests tables table key text := by
  by_cases hnear : ∃ candidate, IsNearest (keysOf tables table) key candidate
  · obtain ⟨candidate, hnear⟩ := hnear
    rw [hclear.suggestionAmong_of_nearest hnear, Option.some.injEq]
    constructor
    · rintro rfl
      exact .near hnear
    · intro h
      cases h with
      | near hother =>
          exact hclear.eq_of_close hnear.mem hother.mem hnear.keyDistance_le hother.keyDistance_le
      | elsewhere hfar => exact absurd hnear (hfar candidate)
  · have hfar : ∀ candidate, ¬IsNearest (keysOf tables table) key candidate :=
      not_exists.mp hnear
    rw [suggestionAmong_of_far hfar, hclear.elsewhere?_eq_some_iff]
    constructor
    · rintro ⟨other, hother, hkey, rfl⟩
      exact .elsewhere hfar hother hkey
    · intro h
      cases h with
      | near hnear => exact absurd hnear (hfar _)
      | elsewhere _ hother hkey => exact ⟨_, hother, hkey, rfl⟩

/-! ### The fields that are suggested -/

/-- The paths of the tables of a configuration and of their fields. -/
def fieldPaths : List (List String) :=
  [["greeting"], ["output"]] ++ greetingFields.map (["greeting", ·.key]) ++
    outputFields.map (["output", ·.key])

theorem mem_fieldPaths (h : key ∈ keysOf knownTables table) :
    table.toList ++ [key] ∈ fieldPaths := by
  obtain ⟨known, hmem, hname, hkey⟩ := exists_of_mem_keysOf h
  have hall : ∀ known ∈ knownTables, ∀ key ∈ known.keys,
      known.name.toList ++ [key] ∈ fieldPaths := by decide
  rw [← hname]
  exact hall known hmem key hkey

theorem point_not_mem_of_known (h : key ∈ keysOf knownTables table) : '.' ∉ key.toList := by
  obtain ⟨known, hmem, -, hkey⟩ := exists_of_mem_keysOf h
  have hall : ∀ known ∈ knownTables, ∀ key ∈ known.keys, '.' ∉ key.toList := by decide
  exact hall known hmem key hkey

theorem suggestion?_eq_some_iff :
    suggestion? table key = some text ↔ Suggests knownTables table key text :=
  isClear_knownTables.suggestionAmong_eq_some_iff

/-- A bare name is suggested as a key of the table. -/
theorem suggests_bare_iff (hfree : '.' ∉ text.toList) :
    Suggests knownTables table key text ↔ IsNearest (keysOf knownTables table) key text := by
  constructor
  · intro h
    cases h with
    | near hnear => exact hnear
    | elsewhere => exact absurd (by simp) hfree
  · exact .near

/-- A name behind a point is suggested as a key of another table. -/
theorem suggests_place_iff {other : String} :
    Suggests knownTables table key (other ++ "." ++ key) ↔
      (∀ candidate, ¬IsNearest (keysOf knownTables table) key candidate) ∧
        some other ≠ table ∧ key ∈ keysOf knownTables (some other) := by
  constructor
  · generalize htext : other ++ "." ++ key = text
    intro h
    cases h with
    | near hnear =>
        have hfree := point_not_mem_of_known hnear.mem
        rw [← htext] at hfree
        exact absurd (by simp) hfree
    | elsewhere hfar hother hkey =>
        have hsame := congrArg String.toList htext
        simp only [String.toList_append, List.append_cancel_right_eq] at hsame
        rw [String.toList_inj.mp hsame]
        exact ⟨hfar, hother, hkey⟩
  · rintro ⟨hfar, hother, hkey⟩
    exact .elsewhere hfar hother hkey

theorem not_suggests_iff : (∀ text, ¬Suggests tables table key text) ↔
    (∀ candidate, ¬IsNearest (keysOf tables table) key candidate) ∧
      ∀ other, some other ≠ table → key ∉ keysOf tables (some other) := by
  constructor
  · intro hnone
    have hfar : ∀ candidate, ¬IsNearest (keysOf tables table) key candidate :=
      fun candidate hnear => hnone candidate (.near hnear)
    exact ⟨hfar, fun other hother hkey => hnone _ (.elsewhere hfar hother hkey)⟩
  · rintro ⟨hfar, hnowhere⟩ text h
    cases h with
    | near hnear => exact hfar text hnear
    | elsewhere _ hother hkey => exact hnowhere _ hother hkey

/-- What is suggested is another key, and one that has a field. -/
theorem Suggests.isField (h : Suggests knownTables table key text) :
    text ≠ key ∧ ∃ path ∈ fieldPaths, path = table.toList ++ [text] ∨
      ∃ other, path = [other, key] ∧ text = other ++ "." ++ key := by
  cases h with
  | near hnear => exact ⟨hnear.ne, _, mem_fieldPaths hnear.mem, Or.inl rfl⟩
  | @elsewhere other _ _ hkey =>
      refine ⟨?_, _, mem_fieldPaths hkey, Or.inr ⟨other, rfl, rfl⟩⟩
      intro hsame
      have hlength := congrArg String.length hsame
      simp at hlength

/-- **A key gets the nearest known key of its table, else the place where it belongs, else
nothing.**  The nearest key is another one, at most two byte edits away, and none of the table's
is nearer.  So whatever is suggested is a field of the configuration and not the key itself. -/
theorem suggestion_characterised (table : Option String) (key : String) :
    (∀ candidate, '.' ∉ candidate.toList →
      (suggestion? table key = some candidate ↔
        IsNearest (keysOf knownTables table) key candidate)) ∧
    (∀ other, suggestion? table key = some (other ++ "." ++ key) ↔
      (∀ candidate, ¬IsNearest (keysOf knownTables table) key candidate) ∧
        some other ≠ table ∧ key ∈ keysOf knownTables (some other)) ∧
    (suggestion? table key = none ↔
      (∀ candidate, ¬IsNearest (keysOf knownTables table) key candidate) ∧
        ∀ other, some other ≠ table → key ∉ keysOf knownTables (some other)) ∧
    ∀ text, suggestion? table key = some text →
      text ≠ key ∧ ∃ path ∈ fieldPaths, path = table.toList ++ [text] ∨
        ∃ other, path = [other, key] ∧ text = other ++ "." ++ key := by
  refine ⟨?_, ?_, ?_, ?_⟩
  · intro candidate hfree
    rw [suggestion?_eq_some_iff, suggests_bare_iff hfree]
  · intro other
    rw [suggestion?_eq_some_iff, suggests_place_iff]
  · rw [Option.eq_none_iff_forall_ne_some, ← not_suggests_iff]
    simp only [ne_eq, suggestion?_eq_some_iff]
  · intro text htext
    exact (suggestion?_eq_some_iff.mp htext).isField

/-- A misspelt key gets the key that was meant, a known key of another table its place, and a
known key nothing, though it is closest to itself. -/
theorem suggestion_characterised_of_three :
    IsNearest (keysOf knownTables (some "greeting")) "nmae" "name" ∧
      ((∀ candidate, ¬IsNearest (keysOf knownTables none) "format" candidate) ∧
        some "output" ≠ (none : Option String) ∧ "format" ∈ keysOf knownTables (some "output")) ∧
      (∀ candidate, ¬IsNearest (keysOf knownTables (some "greeting")) "name" candidate) := by
  have hmisspelt : suggestion? (some "greeting") "nmae" = some "name" := by decide +kernel
  have hmisplaced : suggestion? none "format" = some ("output" ++ "." ++ "format") := by
    decide +kernel
  have hknown : suggestion? (some "greeting") "name" = none := by decide +kernel
  obtain ⟨hnear, -, -, -⟩ := suggestion_characterised (some "greeting") "nmae"
  obtain ⟨-, helsewhere, -, -⟩ := suggestion_characterised none "format"
  obtain ⟨-, -, hnothing, -⟩ := suggestion_characterised (some "greeting") "name"
  exact ⟨(hnear "name" (by decide)).mp hmisspelt, (helsewhere "output").mp hmisplaced,
    (hnothing.mp hknown).1⟩

/-! ### Another order

Tables may be reordered among each other, and the keys within each table.  Both conditions for clear
tables speak of members only, and so does what is suggested then.
-/

/-- A table with its keys in another order. -/
def IsShuffled (known other : KnownTable) : Prop :=
  other.name = known.name ∧ other.keys.Perm known.keys

/-- The same tables in another order, and the keys of each in another order. -/
def IsReordering (tables others : List KnownTable) : Prop :=
  ∃ shuffled, List.Forall₂ IsShuffled tables shuffled ∧ others.Perm shuffled

/-- A member of a list comes from a member of the list that it corresponds to. -/
theorem exists_of_forall₂ {α β : Type} {R : α → β → Prop} {as : List α} {bs : List β}
    (h : List.Forall₂ R as bs) {b : β} (hb : b ∈ bs) : ∃ a ∈ as, R a b := by
  induction h with
  | nil => cases hb
  | @cons a _ as _ hfirst _ ih =>
      rcases List.mem_cons.mp hb with rfl | hb
      · exact ⟨a, List.mem_cons_self, hfirst⟩
      · obtain ⟨found, hfound, hrelated⟩ := ih hb
        exact ⟨found, List.mem_cons_of_mem a hfound, hrelated⟩

namespace IsReordering

variable {others : List KnownTable}

theorem perm_names (h : IsReordering tables others) :
    (others.map (·.name)).Perm (tables.map (·.name)) := by
  obtain ⟨shuffled, hshuffled, hperm⟩ := h
  have hnames : shuffled.map (·.name) = tables.map (·.name) := by
    clear hperm
    induction hshuffled with
    | nil => rfl
    | cons hsame _ ih => rw [List.map_cons, List.map_cons, hsame.1, ih]
  rw [← hnames]
  exact hperm.map _

theorem exists_before (h : IsReordering tables others) {other : KnownTable}
    (hmem : other ∈ others) : ∃ known ∈ tables, IsShuffled known other := by
  obtain ⟨shuffled, hshuffled, hperm⟩ := h
  exact exists_of_forall₂ hshuffled (hperm.mem_iff.mp hmem)

theorem exists_after (h : IsReordering tables others) {known : KnownTable}
    (hmem : known ∈ tables) : ∃ other ∈ others, IsShuffled known other := by
  obtain ⟨shuffled, hshuffled, hperm⟩ := h
  obtain ⟨other, hother, hsame⟩ := exists_of_forall₂ (R := flip IsShuffled) hshuffled.flip hmem
  exact ⟨other, hperm.mem_iff.mpr hother, hsame⟩

/-- Whether tables are clear does not depend on their order. -/
theorem isClear (h : IsReordering tables others) (hclear : IsClear tables) : IsClear others := by
  refine ⟨h.perm_names.nodup_iff.mpr hclear.nodup, ?_, ?_⟩
  · intro other hother a ha b hb
    obtain ⟨known, hknown, -, hkeys⟩ := h.exists_before hother
    exact hclear.far known hknown a (hkeys.mem_iff.mp ha) b (hkeys.mem_iff.mp hb)
  · intro first hfirst second hsecond key hinFirst hinSecond
    obtain ⟨known, hknown, hname, hkeys⟩ := h.exists_before hfirst
    obtain ⟨known', hknown', hname', hkeys'⟩ := h.exists_before hsecond
    rw [hname, hname']
    exact hclear.once known hknown known' hknown' key (hkeys.mem_iff.mp hinFirst)
      (hkeys'.mem_iff.mp hinSecond)

theorem mem_keysOf (h : IsReordering tables others) (hclear : IsClear tables)
    (table : Option String) (key : String) :
    key ∈ keysOf tables table ↔ key ∈ keysOf others table := by
  rw [hclear.mem_keysOf, (h.isClear hclear).mem_keysOf]
  constructor
  · rintro ⟨known, hknown, rfl, hkey⟩
    obtain ⟨other, hother, hname, hkeys⟩ := h.exists_after hknown
    exact ⟨other, hother, hname, hkeys.mem_iff.mpr hkey⟩
  · rintro ⟨other, hother, rfl, hkey⟩
    obtain ⟨known, hknown, hname, hkeys⟩ := h.exists_before hother
    exact ⟨known, hknown, hname.symm, hkeys.mem_iff.mp hkey⟩

end IsReordering

theorem Suggests.congr {others : List KnownTable}
    (hsame : ∀ table key, key ∈ keysOf tables table ↔ key ∈ keysOf others table)
    (h : Suggests tables table key text) : Suggests others table key text := by
  cases h with
  | near hnear => exact .near (hnear.congr (hsame table))
  | elsewhere hfar hother hkey =>
      refine .elsewhere ?_ hother ((hsame _ key).mp hkey)
      intro candidate hnear
      exact hfar candidate (hnear.congr fun key => (hsame table key).symm)

/-- **The order in which keys and tables are listed does not matter.**  No text is within two
edits of two known keys of a table, and from the same tables in another order, with their keys
in another order, every suggestion is the same. -/
theorem suggestion_independent_of_order :
    (∀ (table : Option String) (key a b : String), a ∈ keysOf knownTables table →
      b ∈ keysOf knownTables table → keyDistance key a ≤ 2 → keyDistance key b ≤ 2 → a = b) ∧
    ∀ tables, IsReordering knownTables tables → ∀ (table : Option String) (key : String),
      suggestionAmong tables table key = suggestion? table key := by
  refine ⟨fun _ _ _ _ => isClear_knownTables.eq_of_close, ?_⟩
  intro tables hreordering table key
  have hclear := hreordering.isClear isClear_knownTables
  have hsame := hreordering.mem_keysOf isClear_knownTables
  apply Option.ext
  intro text
  rw [hclear.suggestionAmong_eq_some_iff, suggestion?_eq_some_iff]
  exact ⟨Suggests.congr fun table key => (hsame table key).symm, Suggests.congr hsame⟩

/-- Both orders turned round.  Here `nam` is close to `name`, and so not to `message`. -/
theorem suggestion_independent_of_order_reversed :
    let tables : List KnownTable := [⟨some "output", ["verbosity", "format"]⟩,
      ⟨some "greeting", ["message", "name"]⟩, ⟨none, ["output", "greeting"]⟩]
    suggestionAmong tables (some "greeting") "nam" = suggestion? (some "greeting") "nam" ∧
      ¬keyDistance "nam" "message" ≤ 2 := by
  intro tables
  have hshuffled : List.Forall₂ IsShuffled knownTables tables.reverse :=
    .cons ⟨rfl, .swap _ _ _⟩ (.cons ⟨rfl, .swap _ _ _⟩ (.cons ⟨rfl, .swap _ _ _⟩ .nil))
  have hreordering : IsReordering knownTables tables :=
    ⟨tables.reverse, hshuffled, (List.reverse_perm tables).symm⟩
  obtain ⟨hunique, hsame⟩ := suggestion_independent_of_order
  refine ⟨hsame tables hreordering (some "greeting") "nam", ?_⟩
  intro hclose
  have hequal := hunique (some "greeting") "nam" "name" "message" (by decide) (by decide)
    (by decide +kernel) hclose
  exact absurd hequal (by decide)

end Salutation.Config
