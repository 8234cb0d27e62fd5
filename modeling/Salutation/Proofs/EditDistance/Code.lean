/-
Encoded lists are at least as far apart as the lists themselves.

Where every symbol is written as a word, an edit of elements need not be an edit of symbols.  The
fewest edits may cut through words and keep the end of one word behind the beginning of another.
If no word is the beginning of another, and the element that a word starts with stands inside no
word, this never saves an edit.

What is left of an encoded list from some place on is the end of the word that the place is in,
and whole words behind it.  By induction along the recursion over both encoded lists, what is left
of them needs as many edits of elements as their whole words need edits of symbols:

  * An element inside a word is never the same as one that starts a word.  To put one in the place
    of the other is an edit, and it pays for the symbol that is passed.
  * Of two words that start with the same element nothing is paid at their beginnings.  If they
    are different words, they differ in a later place that both have, and until an edit is made
    behind their beginnings one is owed.

`mismatch` is what is owed.  With it on the left the inequality is kept by every step, and at the
beginning of two lists nothing is owed.
-/
import Salutation.Proofs.EditDistance

namespace Salutation.EditDistance

variable {α β : Type}

/-- Words for symbols.  No word is the beginning of another, and the element that a word starts
with stands inside no word. -/
structure Code (α β : Type) where
  word : α → List β
  ne_nil : ∀ x, word x ≠ []
  eq_of_prefix : ∀ {x y}, word x <+: word y → x = y
  apart : ∀ {x y first later b rest}, word x = first :: later → word y = b :: rest → first ∉ rest

namespace Code

variable (code : Code α β)

/-- The words of some symbols, one after another. -/
def encode (xs : List α) : List β :=
  xs.flatMap code.word

/-- An element that a word starts with. -/
def Starts (b : β) : Prop :=
  ∃ x later, code.word x = b :: later

/-- What is left of an encoded list from some place on: the end of the word that the place is
in, which may be empty, and the words of the symbols behind it. -/
inductive Remains : List β → List β → List α → Prop where
  | nothing : Remains [] [] []
  | inside {b : β} {bs later : List β} {xs : List α} (hinside : ¬code.Starts b)
      (h : Remains bs later xs) : Remains (b :: bs) (b :: later) xs
  | word {x : α} {b : β} {bs later : List β} {xs : List α} (hword : code.word x = b :: later)
      (h : Remains bs later xs) : Remains (b :: bs) [] (x :: xs)

variable {code}

/-- Behind its first element a word has none that starts a word. -/
theorem not_starts_of_mem {x : α} {b c : β} {later : List β} (hword : code.word x = b :: later)
    (hc : c ∈ later) : ¬code.Starts c := by
  rintro ⟨y, rest, hstarts⟩
  exact code.apart hstarts hword hc

theorem Remains.append {bs later : List β} {xs : List α} (h : code.Remains bs [] xs)
    (hinside : ∀ b ∈ later, ¬code.Starts b) : code.Remains (later ++ bs) later xs := by
  induction later with
  | nil => exact h
  | cons b later ih =>
      have hmore := ih fun c hc => hinside c (List.mem_cons_of_mem b hc)
      exact .inside (hinside b List.mem_cons_self) hmore

theorem remains_encode (xs : List α) : code.Remains (code.encode xs) [] xs := by
  induction xs with
  | nil => exact .nothing
  | cons x xs ih =>
      obtain ⟨b, later, hword⟩ := List.exists_cons_of_ne_nil (code.ne_nil x)
      have hencode : code.encode (x :: xs) = b :: (later ++ code.encode xs) := by
        rw [encode, List.flatMap_cons, hword]
        rfl
      rw [hencode]
      exact .word hword (ih.append fun c => not_starts_of_mem hword)

/-- No symbol is written as nothing. -/
theorem Remains.length_le {bs later : List β} {xs : List α} (h : code.Remains bs later xs) :
    xs.length ≤ bs.length := by
  induction h with
  | nothing => exact Nat.le_refl 0
  | inside _ _ ih => exact Nat.le_succ_of_le ih
  | word _ _ ih => exact Nat.succ_le_succ ih

/-! Some symbols may be written as a single element. -/

theorem encode_cons_of_single {x : α} {b : β} (hword : code.word x = [b]) (xs : List α) :
    code.encode (x :: xs) = b :: code.encode xs := by
  rw [encode, List.flatMap_cons, hword]
  rfl

theorem length_encode_of_single {xs : List α} (hxs : ∀ x ∈ xs, ∃ b, code.word x = [b]) :
    (code.encode xs).length = xs.length := by
  induction xs with
  | nil => rfl
  | cons x xs ih =>
      obtain ⟨hx, hxs⟩ := List.forall_mem_cons.mp hxs
      obtain ⟨b, hword⟩ := hx
      rw [encode_cons_of_single hword, List.length_cons, List.length_cons, ih hxs]

end Code

/-! ### What is owed

Behind the beginnings of two words that start alike nothing has been paid for their symbols.  If
the symbols are different, the words part somewhere further on, and until then an edit is owed.  It
is one edit however often they differ, for there is one symbol on either side.  Words that do not
part are the same word, since no word is the beginning of another.
-/

variable [BEq β]

/-- One if two lists differ in a place that both have, and none otherwise. -/
def mismatch : List β → List β → Nat
  | a :: as, b :: bs => if a == b then mismatch as bs else 1
  | _, _ => 0

@[simp] theorem mismatch_nil_left (bs : List β) : mismatch [] bs = 0 := rfl

@[simp] theorem mismatch_nil_right (as : List β) : mismatch as [] = 0 := by
  cases as <;> rfl

theorem mismatch_cons_cons (a b : β) (as bs : List β) :
    mismatch (a :: as) (b :: bs) = if a == b then mismatch as bs else 1 := rfl

theorem mismatch_le_one (as bs : List β) : mismatch as bs ≤ 1 := by
  induction as generalizing bs with
  | nil => simp
  | cons a as ih =>
      cases bs with
      | nil => simp
      | cons b bs =>
          rw [mismatch_cons_cons]
          split
          · exact ih bs
          · exact Nat.le_refl 1

/-- Without a difference one of the lists is the beginning of the other. -/
theorem prefix_of_mismatch_eq_zero [LawfulBEq β] {as bs : List β} (h : mismatch as bs = 0) :
    as <+: bs ∨ bs <+: as := by
  induction as generalizing bs with
  | nil => exact Or.inl List.nil_prefix
  | cons a as ih =>
      cases bs with
      | nil => exact Or.inr List.nil_prefix
      | cons b bs =>
          rw [mismatch_cons_cons] at h
          split at h
          case isTrue hsame =>
            obtain rfl := eq_of_beq hsame
            simpa using ih h
          case isFalse => cases h

namespace Code

variable [BEq α] [LawfulBEq α] [LawfulBEq β] {code : Code α β}

/-- Words of different symbols start differently, or owe an edit behind their beginnings. -/
theorem cost_le_mismatch {x y : α} {a b : β} {later rest : List β}
    (hx : code.word x = a :: later) (hy : code.word y = b :: rest) :
    (if x == y then 0 else 1) ≤ mismatch later rest + if a == b then 0 else 1 := by
  by_cases hfirst : a = b
  · subst hfirst
    by_cases hnone : mismatch later rest = 0
    · rcases prefix_of_mismatch_eq_zero hnone with hbegins | hbegins
      · have hword : code.word x <+: code.word y := by
          rw [hx, hy]
          exact (List.prefix_cons_inj a).mpr hbegins
        simp [code.eq_of_prefix hword]
      · have hword : code.word y <+: code.word x := by
          rw [hx, hy]
          exact (List.prefix_cons_inj a).mpr hbegins
        simp [code.eq_of_prefix hword]
    · have hcost := cost_le x y
      omega
  · have hcost := cost_le x y
    simp only [beq_iff_eq, hfirst, if_false]
    omega

end Code

/-! ### One step of the recursion

A step takes an element off one list or off both.  Whether a symbol is passed with it depends on
whether the element starts a word, so there is one case for each kind of place and for each list.
What a step passes in symbols, it pays for in edits or takes over into what is owed.
-/

namespace Code.Remains

variable [BEq α] {code : Code α β} {a b : β} {as bs later rest : List β} {xs ys : List α}

/-- One element further on, one edit less at most is needed and owed. -/
theorem behind (h : code.Remains (a :: as) later xs) :
    ∃ further zs, code.Remains as further zs ∧
      (∀ ys rest, recursive xs ys + mismatch later rest ≤ recursive zs ys + 1) ∧
      ∀ ys rest, recursive ys xs + mismatch rest later ≤ recursive ys zs + 1 := by
  cases h with
  | @inside _ _ further _ _ h =>
      refine ⟨further, xs, h, ?_, ?_⟩
      · intro ys rest
        exact Nat.add_le_add_left (mismatch_le_one _ _) _
      · intro ys rest
        exact Nat.add_le_add_left (mismatch_le_one _ _) _
  | @word x _ _ further zs _ h =>
      refine ⟨further, zs, h, ?_, ?_⟩
      · intro ys rest
        rw [mismatch_nil_left]
        exact recursive_cons_left_le x zs ys
      · intro ys rest
        rw [mismatch_nil_right]
        exact recursive_cons_right_le x ys zs

variable [LawfulBEq α] [LawfulBEq β]

/-- One element further on in both lists, what it costs to put the one in the place of the other
makes up for the symbols that are passed. -/
theorem behindBoth (hx : code.Remains (a :: as) later xs) (hy : code.Remains (b :: bs) rest ys) :
    ∃ further others zs ws, code.Remains as further zs ∧ code.Remains bs others ws ∧
      recursive xs ys + mismatch later rest ≤
        recursive zs ws + mismatch further others + if a == b then 0 else 1 := by
  cases hx with
  | @inside _ _ further _ hainside hx =>
      cases hy with
      | @inside _ _ others _ _ hy =>
          refine ⟨further, others, xs, ys, hx, hy, ?_⟩
          rw [mismatch_cons_cons]
          split <;> omega
      | @word y _ _ others ws hword hy =>
          -- One stands inside a word and the other starts one, so they are not the same.
          have hdiffer : a ≠ b := by
            rintro rfl
            exact hainside ⟨y, others, hword⟩
          have hcons := recursive_cons_right_le y xs ws
          refine ⟨further, others, xs, ws, hx, hy, ?_⟩
          simp only [mismatch_nil_right, beq_iff_eq, hdiffer, if_false]
          omega
  | @word x _ _ further zs hxword hx =>
      cases hy with
      | @inside _ _ others _ hbinside hy =>
          have hdiffer : a ≠ b := by
            rintro rfl
            exact hbinside ⟨x, further, hxword⟩
          have hcons := recursive_cons_left_le x zs ys
          refine ⟨further, others, zs, ys, hx, hy, ?_⟩
          simp only [mismatch_nil_left, beq_iff_eq, hdiffer, if_false]
          omega
      | @word y _ _ others ws hyword hy =>
          have hcost := cost_le_mismatch hxword hyword
          refine ⟨further, others, zs, ws, hx, hy, ?_⟩
          rw [mismatch_nil_left, recursive_cons_cons]
          omega

/-- **What is left needs as many edits of elements as of symbols, and what is owed besides.** -/
theorem recursive_add_mismatch_le (hx : code.Remains as later xs) (hy : code.Remains bs rest ys) :
    recursive xs ys + mismatch later rest ≤ recursive as bs := by
  induction as, bs using recursive.induct generalizing later rest xs ys with
  | case1 bs =>
      cases hx
      simpa using hy.length_le
  | case2 a as =>
      cases hy
      simpa using hx.length_le
  | case3 a as b bs ihDelete ihInsert ihReplace =>
      -- Each branch of the recursion is at least what the symbols need and what is owed.
      have hdelete : recursive xs ys + mismatch later rest ≤ recursive as (b :: bs) + 1 := by
        obtain ⟨further, zs, hzs, hbehind, -⟩ := hx.behind
        have hsymbols := hbehind ys rest
        have helements := ihDelete hzs hy
        omega
      have hinsert : recursive xs ys + mismatch later rest ≤ recursive (a :: as) bs + 1 := by
        obtain ⟨others, ws, hws, -, hbehind⟩ := hy.behind
        have hsymbols := hbehind xs later
        have helements := ihInsert hx hws
        omega
      have hreplace : recursive xs ys + mismatch later rest ≤
          recursive as bs + if a == b then 0 else 1 := by
        obtain ⟨further, others, zs, ws, hzs, hws, hbehind⟩ := hx.behindBoth hy
        have helements := ihReplace hzs hws
        omega
      rw [recursive_cons_cons]
      omega

end Code.Remains

/-! ### The distance of encoded lists -/

namespace Code

variable [BEq α] [LawfulBEq α] [LawfulBEq β] (code : Code α β)

/-- **Encoded lists are at least as far apart as what they encode.** -/
theorem distance_le_distance_encode (xs ys : List α) :
    distance xs ys ≤ distance (code.encode xs) (code.encode ys) := by
  have hxs : code.Remains (code.encode xs) [] xs := remains_encode xs
  have hys : code.Remains (code.encode ys) [] ys := remains_encode ys
  have hle := hxs.recursive_add_mismatch_le hys
  rw [mismatch_nil_left, Nat.add_zero] at hle
  rw [distance_recursive, distance_recursive]
  exact hle

theorem beq_of_single {x y : α} {a b : β} (hx : code.word x = [a]) (hy : code.word y = [b]) :
    (a == b) = (x == y) := by
  rw [Bool.eq_iff_iff, beq_iff_eq, beq_iff_eq]
  constructor
  · rintro rfl
    have hword : code.word x = code.word y := hx.trans hy.symm
    exact code.eq_of_prefix (hword ▸ List.prefix_rfl)
  · rintro rfl
    exact List.singleton_inj.mp (hx.symm.trans hy)

/-- Where words are single elements, an edit of elements is an edit of symbols. -/
theorem distance_encode_of_single {xs ys : List α} (hxs : ∀ x ∈ xs, ∃ b, code.word x = [b])
    (hys : ∀ y ∈ ys, ∃ b, code.word y = [b]) :
    distance (code.encode xs) (code.encode ys) = distance xs ys := by
  rw [distance_recursive, distance_recursive]
  induction xs, ys using recursive.induct with
  | case1 ys => simpa [encode] using length_encode_of_single hys
  | case2 x xs => simpa [encode] using length_encode_of_single hxs
  | case3 x xs y ys ihDelete ihInsert ihReplace =>
      obtain ⟨hx, hmore⟩ := List.forall_mem_cons.mp hxs
      obtain ⟨hy, hothers⟩ := List.forall_mem_cons.mp hys
      obtain ⟨a, ha⟩ := hx
      obtain ⟨b, hb⟩ := hy
      have hdelete := ihDelete hmore hys
      have hinsert := ihInsert hxs hothers
      rw [encode_cons_of_single hb] at hdelete
      rw [encode_cons_of_single ha] at hinsert
      rw [encode_cons_of_single ha, encode_cons_of_single hb, recursive_cons_cons,
        recursive_cons_cons, hdelete, hinsert, ihReplace hmore hothers, code.beq_of_single ha hb]

end Code

end Salutation.EditDistance
