/-
Integers end where they stop.

An integer is read up to the first character that cannot continue it, and nothing behind
that character is looked at.  So an integer that makes up a whole text is read in the same
way in front of a space, a comment or a line ending.

The readers of dates, times and numbers with a fraction come first and find nothing.  They
still find nothing then: whatever they look for, it is not completed by what stops a value.
-/
import Salutation.Proofs.Toml.Refusal
import Salutation.Toml.Moment

namespace Salutation.Toml

/-- What may stand behind a value on its line: nothing, a space, a comment or a line ending. -/
def StopsValue (rest : List Char) : Prop :=
  ∀ c ∈ rest.head?, c ∈ [' ', '\t', '#', '\r', '\n']

section

variable {written rest : List Char} (hrest : StopsValue rest)

include hrest

/-- What stops a value starts with no character that could continue it. -/
theorem StopsValue.cases :
    rest = [] ∨ ∃ c more, rest = c :: more ∧
      c.isDigit = false ∧ c ∉ ['_', '.', 'e', 'E', '-', ':', '"', '\''] ∧ radix? c = none := by
  cases rest with
  | nil => exact Or.inl rfl
  | cons c more =>
      have hstop := hrest c rfl
      refine Or.inr ⟨c, more, rfl, ?_⟩
      simp only [List.mem_cons, List.not_mem_nil, or_false] at hstop
      rcases hstop with rfl | rfl | rfl | rfl | rfl <;> exact ⟨rfl, by decide, rfl⟩

/-- What stops a value is no digit in any base. -/
theorem StopsValue.not_digit {c base : Char} {n : Nat} {isDigit : Char → Bool}
    (hbase : radix? base = some (n, isDigit)) (hc : c ∈ rest.head?) : isDigit c = false := by
  have hstop := hrest c hc
  simp only [List.mem_cons, List.not_mem_nil, or_false] at hstop
  unfold radix? at hbase
  split at hbase
  all_goals
    cases hbase
    try rcases hstop with rfl | rfl | rfl | rfl | rfl <;> decide

/-! ### Digits -/

omit hrest in
/-- An underscore has digits behind it, or else it is refused. -/
theorem ne_underscore {c : Char} {more : List Char}
    (hpair : ∀ d left, c = '_' → more = d :: left → False)
    (hlast : c = '_' → more = [] → False) : c ≠ '_' := by
  intro hc
  cases more with
  | nil => exact hlast hc rfl
  | cons d left => exact hpair d left hc rfl

/-- Digits in a row end where they stop. -/
theorem moreDigits_append {isDigit : Char → Bool}
    (hdigit : ∀ c ∈ rest.head?, isDigit c = false) {ds left : List Char}
    (h : moreDigits isDigit written = .ok (ds, left)) :
    moreDigits isDigit (written ++ rest) = .ok (ds, left ++ rest) := by
  fun_induction moreDigits isDigit written generalizing ds with
  | case1 c more hc ih =>
      obtain ⟨others, hmore, rfl⟩ := push_eq_ok h
      simp [moreDigits, hc, ih hmore, push_ok]
  | case2 => cases h
  | case3 => cases h
  | case4 c more hpair hlast hc ih =>
      obtain ⟨others, hmore, rfl⟩ := push_eq_ok h
      simp [moreDigits, ne_underscore hpair hlast, hc, ih hmore, push_ok]
  | case5 c more hpair hlast hc =>
      cases h
      simp [moreDigits, ne_underscore hpair hlast, hc]
  | case6 =>
      cases h
      rcases hrest.cases with rfl | ⟨c, more, rfl, -, hother, -⟩
      · rfl
      · have hc : isDigit c = false := hdigit c rfl
        simp only [List.mem_cons, not_or] at hother
        simp [moreDigits, hother, hc]

theorem digits_append {isDigit : Char → Bool} (hdigit : ∀ c ∈ rest.head?, isDigit c = false)
    {ds left : List Char} (h : digits isDigit written = .ok (ds, left)) :
    digits isDigit (written ++ rest) = .ok (ds, left ++ rest) := by
  unfold digits at h
  split at h
  case h_1 c more =>
    split at h
    case isTrue hc =>
      have hmore := moreDigits_append hrest hdigit h
      rw [List.cons_append] at hmore ⊢
      simpa [digits, hc] using hmore
    case isFalse => cases h
  case h_2 => cases h

theorem StopsValue.not_decimal {c : Char} (hc : c ∈ rest.head?) : c.isDigit = false := by
  rcases hrest.cases with rfl | ⟨d, more, rfl, hdigit, -⟩
  · cases hc
  · cases hc
    exact hdigit

theorem wholePart?_append {ds left : List Char}
    (h : wholePart? written = .ok (some (ds, left))) :
    wholePart? (written ++ rest) = .ok (some (ds, left ++ rest)) := by
  unfold wholePart? at h
  split at h
  case h_1 =>
    cases h
    rfl
  case h_2 c more hzero =>
    split at h
    case isTrue hc =>
      cases hmore : moreDigits Char.isDigit (c :: more) with
      | error =>
          rw [hmore] at h
          cases h
      | ok result =>
          rw [hmore] at h
          cases h
          have happend := moreDigits_append hrest (fun _ => hrest.not_decimal) hmore
          rw [List.cons_append] at happend ⊢
          simp [wholePart?, hc, happend, Except.map]
    case isFalse => cases h
  case h_3 => cases h

/-- So many digits at the start of a text are still there, and no more. -/
theorem fixedDigits?_append (count : Nat) :
    fixedDigits? count (written ++ rest) =
      (fixedDigits? count written).map fun (n, left) => (n, left ++ rest) := by
  by_cases hlong : count ≤ written.length
  · have htake : (written ++ rest).take count = written.take count :=
      List.take_append_of_le_length hlong
    have hdrop : (written ++ rest).drop count = written.drop count ++ rest :=
      List.drop_append_of_le_length hlong
    simp only [fixedDigits?, htake, hdrop]
    split <;> rfl
  · have hshort : written.length < count := Nat.lt_of_not_le hlong
    have hbefore : fixedDigits? count written = none := by
      simp [fixedDigits?, List.length_take, Nat.min_eq_right (Nat.le_of_lt hshort),
        Nat.ne_of_lt hshort]
    rw [hbefore, Option.map_none]
    rcases hrest.cases with rfl | ⟨c, more, rfl, hc, -⟩
    · rw [List.append_nil, hbefore]
    · -- The window reaches beyond the text, to the character that is no digit.
      have hmem : c ∈ (written ++ c :: more).take count := by
        rw [List.take_append, List.mem_append]
        refine Or.inr ?_
        obtain ⟨n, hn⟩ := Nat.exists_eq_add_one_of_ne_zero (Nat.sub_ne_zero_of_lt hshort)
        rw [hn]
        exact List.mem_cons_self
      have hall : ((written ++ c :: more).take count).all Char.isDigit = false := by
        rw [← Bool.not_eq_true, List.all_eq_true]
        intro hdigits
        rw [hdigits c hmem] at hc
        cases hc
      simp only [fixedDigits?, hall, Bool.and_false]
      rfl

/-! ### Dates and times -/

/-- What is not there is not there either when the text goes on behind what stops a value. -/
theorem afterDate?_append (h : afterDate? written = .ok none) :
    afterDate? (written ++ rest) = .ok none := by
  unfold afterDate? at h ⊢
  rw [fixedDigits?_append hrest]
  cases hdigits : fixedDigits? 4 written with
  | none => rfl
  | some result =>
      obtain ⟨year, left⟩ := result
      rw [hdigits] at h
      cases left with
      | nil =>
          rcases hrest.cases with rfl | ⟨c, more, rfl, -, hother, -⟩
          · rfl
          · have hc : c ≠ '-' := by
              rintro rfl
              exact hother (by decide)
            simp [hc]
      | cons c left =>
          by_cases hc : c = '-'
          · subst hc
            have hday : (monthAndDay year left).map some = .ok none := h
            cases hresult : monthAndDay year left <;> rw [hresult] at hday <;> cases hday
          · simp [hc]

theorem below?_append (bound : Nat) :
    below? bound (written ++ rest) = (below? bound written).map (· ++ rest) := by
  unfold below?
  rw [fixedDigits?_append hrest]
  cases fixedDigits? 2 written with
  | none => rfl
  | some result =>
      simp only [Option.map_some, bind, Option.bind]
      split <;> rfl

theorem afterTime?_append (h : afterTime? written = .ok none) :
    afterTime? (written ++ rest) = .ok none := by
  unfold afterTime? at h ⊢
  rw [below?_append hrest]
  cases hhour : below? 24 written with
  | none => rfl
  | some left =>
      rw [hhour] at h
      cases left with
      | nil =>
          rcases hrest.cases with rfl | ⟨c, more, rfl, -, hother, -⟩
          · rfl
          · have hc : c ≠ ':' := by
              rintro rfl
              exact hother (by decide)
            simp [hc]
      | cons c left =>
          by_cases hc : c = ':'
          · subst hc
            obtain ⟨_, -, h⟩ := bind_eq_ok.mp h
            obtain ⟨_, -, h⟩ := bind_eq_ok.mp h
            obtain ⟨_, -, h⟩ := bind_eq_ok.mp h
            cases h
          · simp [hc]

omit hrest in
theorem moment?_eq_none_iff : moment? written = .ok none ↔
    afterDate? written = .ok none ∧ afterTime? written = .ok none := by
  unfold moment?
  cases hdate : afterDate? written with
  | error => simp [bind, Except.bind]
  | ok date? =>
      cases date? with
      | none =>
          cases afterTime? written with
          | error => simp [bind, Except.bind]
          | ok time? => simp [bind, Except.bind, pure, Except.pure]
      | some left =>
          cases htime : afterTimeOfDay left with
          | error => simp [htime, bind, Except.bind, Except.map]
          | ok => simp [htime, bind, Except.bind, pure, Except.pure, Except.map]

theorem moment?_append (h : moment? written = .ok none) :
    moment? (written ++ rest) = .ok none := by
  rw [moment?_eq_none_iff] at h ⊢
  exact ⟨afterDate?_append hrest h.1, afterTime?_append hrest h.2⟩

/-! ### Numbers with a fraction -/

omit hrest in
theorem sign_append (hne : written ≠ []) :
    sign (written ++ rest) = ((sign written).1, (sign written).2 ++ rest) := by
  cases written with
  | nil => exact absurd rfl hne
  | cons c more =>
      unfold sign
      by_cases hminus : c = '-'
      · simp [hminus]
      · by_cases hplus : c = '+'
        · simp [hplus]
        · simp [hminus, hplus]

omit hrest in
/-- What has no fraction and no exponent goes on with neither a point nor an e. -/
theorem fraction?_eq_none_iff {left : List Char} :
    fraction? left = .ok none ↔ ∀ c ∈ left.head?, c ≠ '.' ∧ c ≠ 'e' ∧ c ≠ 'E' := by
  cases left with
  | nil => simp [fraction?, exponent?, bind, Except.bind, pure, Except.pure]
  | cons c more =>
      simp only [List.head?_cons, Option.mem_some_iff, forall_eq']
      by_cases hpoint : c = '.'
      · subst hpoint
        refine iff_of_false (fun h => ?_) (by simp)
        obtain ⟨⟨places, left⟩, -, h⟩ := bind_eq_ok.mp h
        obtain ⟨power?, -, h⟩ := bind_eq_ok.mp h
        cases power? <;> cases h
      · have hexponent : fraction? (c :: more) = .ok none ↔ exponent? (c :: more) = .ok none := by
          have hfraction : fraction? (c :: more) =
              (exponent? (c :: more)).map (Option.map fun result => (([], result.1), result.2)) := by
            unfold fraction?
            split
            case h_1 hcons =>
              cases hcons
              exact absurd rfl hpoint
            case h_2 =>
              cases exponent? (c :: more) with
              | error => rfl
              | ok power? => cases power? <;> rfl
          rw [hfraction]
          cases exponent? (c :: more) with
          | error => simp [Except.map]
          | ok power? => cases power? <;> simp [Except.map]
        rw [hexponent, exponent?]
        by_cases he : c = 'e' ∨ c = 'E'
        · refine iff_of_false (fun h => ?_) (fun h => he.elim h.2.1 h.2.2)
          rw [if_pos (by simpa using he)] at h
          obtain ⟨_, -, h⟩ := bind_eq_ok.mp h
          cases h
        · rw [if_neg (by simpa using he)]
          exact iff_of_true rfl ⟨hpoint, not_or.mp he⟩

omit hrest in
theorem quantityAt?_eq_none_iff {whole left : List Char}
    (hwhole : wholePart? (sign written).2 = .ok (some (whole, left))) :
    quantityAt? written = .ok none ↔ fraction? left = .ok none := by
  unfold quantityAt?
  simp only [hwhole]
  cases hfraction : fraction? left with
  | error => simp [hfraction, bind, Except.bind]
  | ok fraction? =>
      cases fraction? with
      | none => simp [hfraction, bind, Except.bind, pure, Except.pure]
      | some parts =>
          refine iff_of_false (fun h => ?_) (by simp)
          obtain ⟨_, hok, h⟩ := bind_eq_ok.mp h
          cases hok
          simp only [hfraction] at h
          obtain ⟨_, hok, h⟩ := bind_eq_ok.mp h
          cases hok
          dsimp only at h
          split at h <;> cases h

/-! ### Integers -/

omit hrest in
/-- An integer announces its base, or else is decimal. -/
theorem based_or_decimal (written : List Char) :
    (∃ c more base isDigit, written = '0' :: c :: more ∧ radix? c = some (base, isDigit)) ∨
      ∀ c more, written = '0' :: c :: more → radix? c = none := by
  by_cases hbased : ∃ c more base isDigit, written = '0' :: c :: more ∧
      radix? c = some (base, isDigit)
  · exact Or.inl hbased
  · refine Or.inr fun c more hwritten => Option.eq_none_iff_forall_not_mem.mpr fun base hbase => ?_
    exact hbased ⟨c, more, base.1, base.2, hwritten, hbase⟩

omit hrest in
/-- An integer counts as read if it is within its range. -/
theorem inRange_eq_ok_iff {text after left : List Char} {m n : Int} :
    (if fits m then pure (m, after) else refuse text .range : Except Refusal (Int × List Char)) =
      .ok (n, left) ↔ m = n ∧ after = left ∧ fits n = true := by
  cases hfits : fits m with
  | true =>
      constructor
      · intro h
        cases h
        exact ⟨rfl, rfl, hfits⟩
      · rintro ⟨rfl, rfl, -⟩
        rfl
  | false =>
      refine iff_of_false (fun h => ?_) ?_
      · cases h
      · rintro ⟨rfl, -, h⟩
        rw [hfits] at h
        cases h

omit hrest in
/-- An integer with digits in a base, which a zero and a letter announce. -/
theorem integer_based_iff {c : Char} {base : Nat} {isDigit : Char → Bool} {more left : List Char}
    {n : Int} (hbase : radix? c = some (base, isDigit)) :
    integer ('0' :: c :: more) = .ok (n, left) ↔
      ∃ ds, digits isDigit more = .ok (ds, left) ∧ (ofDigits base ds : Int) = n ∧
        fits n = true := by
  unfold integer
  simp only [hbase, Option.map_some, bind_eq_ok, Prod.exists, inRange_eq_ok_iff]
  cases digits isDigit more with
  | error => simp [Except.map]
  | ok result => simp [Except.map, Prod.ext_iff, and_assoc, and_comm, and_left_comm]

omit hrest in
/-- An integer with decimal digits, where no base is announced. -/
theorem integer_decimal_iff {n : Int} {left : List Char}
    (hbase : ∀ c more, written = '0' :: c :: more → radix? c = none) :
    integer written = .ok (n, left) ↔
      ∃ ds, wholePart? (sign written).2 = .ok (some (ds, left)) ∧
        signed (sign written).1 (ofDigits 10 ds) = n ∧ fits n = true := by
  unfold integer
  dsimp only
  split
  case h_1 hbased =>
    split at hbased
    case h_1 c more =>
      rw [hbase c more rfl] at hbased
      cases hbased
    case h_2 => cases hbased
  case h_2 =>
    rw [bind_eq_ok]
    cases wholePart? (sign written).2 with
    | error => simp
    | ok whole? =>
        cases whole? with
        | none => simp [refuse, bind, Except.bind]
        | some whole =>
            obtain ⟨ds, after⟩ := whole
            refine Iff.trans (b := signed (sign written).1 (ofDigits 10 ds) = n ∧ after = left ∧
              fits n = true) ⟨?_, ?_⟩ ?_
            · rintro ⟨_, hwhole, h⟩
              cases hwhole
              exact inRange_eq_ok_iff.mp h
            · intro h
              exact ⟨_, rfl, inRange_eq_ok_iff.mpr h⟩
            · simp [and_assoc, and_comm]

omit hrest in
/-- An integer has decimal digits at its start, if only the zero of another base. -/
theorem wholePart?_of_integer {n : Int} {left : List Char} (h : integer written = .ok (n, left)) :
    ∃ ds more, wholePart? (sign written).2 = .ok (some (ds, more)) := by
  rcases based_or_decimal written with ⟨c, more, -, -, rfl, -⟩ | hdecimal
  · exact ⟨['0'], c :: more, rfl⟩
  · obtain ⟨ds, hwhole, -⟩ := (integer_decimal_iff hdecimal).mp h
    exact ⟨ds, left, hwhole⟩

omit hrest in
theorem ne_nil_of_integer {n : Int} {left : List Char} (h : integer written = .ok (n, left)) :
    written ≠ [] := by
  rintro rfl
  cases h

/-- An integer ends where it stops. -/
theorem integer_append {n : Int} {left : List Char} (h : integer written = .ok (n, left)) :
    integer (written ++ rest) = .ok (n, left ++ rest) := by
  rcases based_or_decimal written with ⟨c, more, base, isDigit, rfl, hbase⟩ | hdecimal
  · obtain ⟨ds, hdigits, hn⟩ := (integer_based_iff hbase).mp h
    have happend := digits_append hrest (fun _ => hrest.not_digit hbase) hdigits
    exact (integer_based_iff hbase).mpr ⟨ds, happend, hn⟩
  · obtain ⟨ds, hwhole, hn⟩ := (integer_decimal_iff hdecimal).mp h
    have hsign : sign (written ++ rest) = _ := sign_append (ne_nil_of_integer h)
    have hlonger : ∀ c more, written ++ rest = '0' :: c :: more → radix? c = none := by
      intro c more hwritten
      match written, hdecimal, hwritten with
      | [], _, _ => exact absurd rfl (ne_nil_of_integer h)
      | [_], _, hwritten =>
          rcases hrest.cases with rfl | ⟨d, left, rfl, -, -, hstop⟩
          · cases hwritten
          · cases hwritten
            exact hstop
      | _ :: _ :: _, hdecimal, hwritten =>
          cases hwritten
          exact hdecimal _ _ rfl
    rw [integer_decimal_iff hlonger, hsign]
    exact ⟨ds, wholePart?_append hrest hwhole, hn⟩

omit hrest in
theorem number_eq_integer_iff {n : Int} {left : List Char} :
    number written = .ok (.integer n, left) ↔
      quantityAt? written = .ok none ∧ integer written = .ok (n, left) := by
  unfold number
  simp only [bind_eq_ok]
  constructor
  · rintro ⟨quantity?, hquantity, h⟩
    cases quantity? with
    | some => cases h
    | none =>
        obtain ⟨⟨m, after⟩, hinteger, h⟩ := bind_eq_ok.mp h
        cases h
        exact ⟨hquantity, hinteger⟩
  · rintro ⟨hquantity, hinteger⟩
    exact ⟨none, hquantity, bind_eq_ok.mpr ⟨_, hinteger, rfl⟩⟩

/-- What is read as an integer is still nothing else in front of what stops it. -/
theorem number_append {n : Int} {left : List Char}
    (h : number written = .ok (.integer n, left)) :
    number (written ++ rest) = .ok (.integer n, left ++ rest) := by
  obtain ⟨hquantity, hinteger⟩ := number_eq_integer_iff.mp h
  refine number_eq_integer_iff.mpr ⟨?_, integer_append hrest hinteger⟩
  obtain ⟨ds, more, hwhole⟩ := wholePart?_of_integer hinteger
  have hlonger : wholePart? (sign (written ++ rest)).2 = .ok (some (ds, more ++ rest)) := by
    rw [sign_append (ne_nil_of_integer hinteger)]
    exact wholePart?_append hrest hwhole
  rw [quantityAt?_eq_none_iff hwhole, fraction?_eq_none_iff] at hquantity
  rw [quantityAt?_eq_none_iff hlonger, fraction?_eq_none_iff]
  cases more with
  | cons c more => exact hquantity
  | nil =>
      rcases hrest.cases with rfl | ⟨c, more, rfl, -, hother, -⟩
      · exact hquantity
      · simp only [List.mem_cons, not_or] at hother
        simp [hother]

end

end Salutation.Toml
