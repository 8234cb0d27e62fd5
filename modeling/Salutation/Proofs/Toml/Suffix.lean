/-
What a reader leaves is the end of its text.

Every reader takes something from the start of its text and gives back the rest.  That the
rest really is the end of that text, and nothing else, is what makes it a place: the rests
that a document remembers are ends of the document, one inside the other in the order in
which they were read.
-/
import Mathlib.Tactic.SplitIfs
import Salutation.Proofs.Toml.Number
import Salutation.Proofs.Toml.Statement

namespace Salutation.Toml

/-- A reader of something that may be missing has found what the reader of the thing itself has. -/
theorem map_some_eq_ok {ε α : Type} {result : Except ε α} {a : α} :
    result.map some = .ok (some a) ↔ result = .ok a := by
  cases result <;> simp [Except.map]

section

variable {text rest : List Char}

/-! ### Numbers -/

/-- An underscore is taken together with the digit behind it. -/
theorem moreDigits_suffix {isDigit : Char → Bool} {ds : List Char}
    (h : moreDigits isDigit text = .ok (ds, rest)) : rest <:+ text := by
  fun_induction moreDigits isDigit text generalizing ds with
  | case1 c more _ ih =>
      obtain ⟨others, hmore, -⟩ := push_eq_ok h
      exact (ih hmore).trans ⟨['_', c], rfl⟩
  | case2 => cases h
  | case3 => cases h
  | case4 c more _ _ _ ih =>
      obtain ⟨others, hmore, -⟩ := push_eq_ok h
      exact (ih hmore).trans (List.suffix_cons c more)
  | case5 =>
      cases h
      exact List.suffix_rfl
  | case6 =>
      cases h
      exact List.suffix_rfl

/-- Where a digit has to come, more may follow. -/
theorem digits_suffix {isDigit : Char → Bool} {ds : List Char}
    (h : digits isDigit text = .ok (ds, rest)) : rest <:+ text := by
  unfold digits at h
  split at h
  case h_1 =>
    split at h
    · exact moreDigits_suffix h
    · cases h
  case h_2 => cases h

/-- A zero is a whole part by itself; any other may go on. -/
theorem wholePart?_suffix {ds : List Char} (h : wholePart? text = .ok (some (ds, rest))) :
    rest <:+ text := by
  unfold wholePart? at h
  split at h
  case h_1 =>
    cases h
    exact List.suffix_cons _ _
  case h_2 =>
    split at h
    · exact moreDigits_suffix (map_some_eq_ok.mp h)
    · cases h
  case h_3 => cases h

theorem sign_suffix (text : List Char) : (sign text).2 <:+ text := by
  unfold sign
  split
  · exact List.suffix_cons _ _
  · exact List.suffix_cons _ _
  · exact List.suffix_rfl

/-- An exponent is its letter, perhaps a sign, and digits. -/
theorem exponent?_suffix {power : Int} (h : exponent? text = .ok (some (power, rest))) :
    rest <:+ text := by
  unfold exponent? at h
  split at h
  case h_1 c more =>
    split at h
    case isTrue =>
      obtain ⟨⟨ds, after⟩, hdigits, h⟩ := bind_eq_ok.mp h
      cases h
      exact (digits_suffix hdigits).trans ((sign_suffix more).trans (List.suffix_cons c more))
    case isFalse => cases h
  case h_2 => cases h

/-- A fraction may have an exponent behind it, or be nothing but one. -/
theorem fraction?_suffix {parts : List Char × Int} (h : fraction? text = .ok (some (parts, rest))) :
    rest <:+ text := by
  unfold fraction? at h
  split at h
  case h_1 more =>
    obtain ⟨⟨places, left⟩, hplaces, h⟩ := bind_eq_ok.mp h
    obtain ⟨exponent?, hexponent, h⟩ := bind_eq_ok.mp h
    have hleft : left <:+ '.' :: more := (digits_suffix hplaces).trans (List.suffix_cons _ _)
    cases exponent? with
    | none =>
        cases h
        exact hleft
    | some =>
        cases h
        exact (exponent?_suffix hexponent).trans hleft
  case h_2 =>
    obtain ⟨exponent?, hexponent, h⟩ := bind_eq_ok.mp h
    cases exponent? with
    | none => cases h
    | some =>
        cases h
        exact exponent?_suffix hexponent

theorem namedNumber?_suffix {negative : Bool} {quantity : Quantity}
    (h : namedNumber? negative text = some (quantity, rest)) : rest <:+ text := by
  unfold namedNumber? at h
  split at h
  · cases h
    exact ⟨['i', 'n', 'f'], rfl⟩
  · cases h
    exact ⟨['n', 'a', 'n'], rfl⟩
  · cases h

/-- What has a fraction or an exponent is a quantity, and so are the words for infinity and for no
number. -/
theorem quantityAt?_suffix {quantity : Quantity}
    (h : quantityAt? text = .ok (some (quantity, rest))) : rest <:+ text := by
  unfold quantityAt? at h
  have hsign := sign_suffix text
  obtain ⟨whole?, hwhole, h⟩ := bind_eq_ok.mp h
  cases whole? with
  | none => exact (namedNumber?_suffix (Except.ok.inj h)).trans hsign
  | some whole =>
      obtain ⟨whole, left⟩ := whole
      obtain ⟨fraction?, hfraction, h⟩ := bind_eq_ok.mp h
      cases fraction? with
      | none => cases h
      | some fraction =>
          dsimp only at h
          split at h
          · cases h
            exact (fraction?_suffix hfraction).trans ((wholePart?_suffix hwhole).trans hsign)
          · cases h

/-- How an integer is written is known, so what is left of it is too. -/
theorem integer_suffix {n : Int} (h : integer text = .ok (n, rest)) : rest <:+ text := by
  rcases based_or_decimal text with ⟨c, more, base, isDigit, rfl, hbase⟩ | hdecimal
  · obtain ⟨ds, hdigits, -⟩ := (integer_based_iff hbase).mp h
    exact (digits_suffix hdigits).trans ⟨['0', c], rfl⟩
  · obtain ⟨ds, hwhole, -⟩ := (integer_decimal_iff hdecimal).mp h
    exact (wholePart?_suffix hwhole).trans (sign_suffix text)

/-- A number is a quantity, or else an integer. -/
theorem number_suffix {value : Scalar} (h : number text = .ok (value, rest)) : rest <:+ text := by
  obtain ⟨quantity?, hquantity, h⟩ := bind_eq_ok.mp h
  cases quantity? with
  | some =>
      cases h
      exact quantityAt?_suffix hquantity
  | none =>
      obtain ⟨⟨n, after⟩, hinteger, h⟩ := bind_eq_ok.mp h
      cases h
      exact integer_suffix hinteger

/-! ### Dates and times -/

theorem fixedDigits?_suffix {count n : Nat} (h : fixedDigits? count text = some (n, rest)) :
    rest <:+ text := by
  unfold fixedDigits? at h
  dsimp only at h
  split at h
  · cases h
    exact List.drop_suffix count text
  · cases h

/-- A part of a date or a time is two digits. -/
theorem below?_suffix {bound : Nat} (h : below? bound text = some rest) : rest <:+ text := by
  obtain ⟨⟨n, left⟩, hdigits, h⟩ := Option.bind_eq_some_iff.mp h
  dsimp only at h
  split at h
  · cases h
    exact fixedDigits?_suffix hdigits
  · cases h

theorem below_suffix {bound : Nat} (h : below bound text = .ok rest) : rest <:+ text := by
  unfold below at h
  split at h
  case h_1 hbelow =>
    cases h
    exact below?_suffix hbelow
  case h_2 => cases h

theorem behind_suffix {c : Char} (h : behind c text = .ok rest) : rest <:+ text := by
  unfold behind at h
  split at h
  case h_1 =>
    split at h
    · cases h
      exact List.suffix_cons _ _
    · cases h
  case h_2 => cases h

/-- A date goes on behind its year with two parts and a hyphen between them. -/
theorem monthAndDay_suffix {year : Nat} (h : monthAndDay year text = .ok rest) : rest <:+ text := by
  unfold monthAndDay at h
  split at h
  case h_1 => cases h
  case h_2 month left hmonth =>
    obtain ⟨dayAt, hbehind, h⟩ := bind_eq_ok.mp h
    have hdayAt : dayAt <:+ text := (behind_suffix hbehind).trans (fixedDigits?_suffix hmonth)
    split at h
    case h_1 => cases h
    case h_2 day after hday =>
      split at h
      · cases h
        exact (fixedDigits?_suffix hday).trans hdayAt
      · cases h

theorem afterDate?_suffix (h : afterDate? text = .ok (some rest)) : rest <:+ text := by
  unfold afterDate? at h
  split at h
  case h_1 year left hyear =>
    have hleft : left <:+ text := (List.suffix_cons '-' left).trans (fixedDigits?_suffix hyear)
    exact (monthAndDay_suffix (map_some_eq_ok.mp h)).trans hleft
  case h_2 => cases h

theorem afterFraction_suffix (text : List Char) : afterFraction text <:+ text := by
  unfold afterFraction
  split
  case h_1 c more =>
    split
    · exact (List.dropWhile_suffix _).trans ⟨['.', c], rfl⟩
    · exact List.suffix_rfl
  case h_2 => exact List.suffix_rfl

/-- A time is an hour, a minute and a second, and perhaps a part of a second. -/
theorem afterTime?_suffix (h : afterTime? text = .ok (some rest)) : rest <:+ text := by
  unfold afterTime? at h
  split at h
  case h_1 left hhour =>
    obtain ⟨minute, hminute, h⟩ := bind_eq_ok.mp h
    obtain ⟨colon, hcolon, h⟩ := bind_eq_ok.mp h
    obtain ⟨second, hsecond, h⟩ := bind_eq_ok.mp h
    cases h
    have hleft : left <:+ text := (List.suffix_cons ':' left).trans (below?_suffix hhour)
    have hcolon : colon <:+ left := (behind_suffix hcolon).trans (below_suffix hminute)
    exact (afterFraction_suffix second).trans ((below_suffix hsecond).trans (hcolon.trans hleft))
  case h_2 => cases h

/-- Behind a time there may be a letter, or a sign with an hour and a minute. -/
theorem afterOffset_suffix (h : afterOffset text = .ok rest) : rest <:+ text := by
  unfold afterOffset at h
  split at h
  case h_1 c more =>
    have hmore : more <:+ c :: more := List.suffix_cons c more
    split_ifs at h
    · cases h
      exact hmore
    · obtain ⟨hour, hhour, h⟩ := bind_eq_ok.mp h
      obtain ⟨colon, hcolon, h⟩ := bind_eq_ok.mp h
      have hhour : hour <:+ more := below_suffix hhour
      exact (below_suffix h).trans ((behind_suffix hcolon).trans (hhour.trans hmore))
    · cases h
      exact List.suffix_rfl
  case h_2 =>
    cases h
    exact List.suffix_rfl

theorem afterTimeOfDay_suffix (h : afterTimeOfDay text = .ok rest) : rest <:+ text := by
  unfold afterTimeOfDay at h
  split at h
  case h_1 c more =>
    split at h
    case isTrue =>
      obtain ⟨time?, htime, h⟩ := bind_eq_ok.mp h
      cases time? with
      | none =>
          cases h
          exact List.suffix_rfl
      | some after =>
          have hafter : after <:+ c :: more := (afterTime?_suffix htime).trans (List.suffix_cons _ _)
          exact (afterOffset_suffix h).trans hafter
    case isFalse =>
      cases h
      exact List.suffix_rfl
  case h_2 =>
    cases h
    exact List.suffix_rfl

/-- A moment is a date, a time, or a date with a time behind it. -/
theorem moment?_suffix {value : Scalar} (h : moment? text = .ok (some (value, rest))) :
    rest <:+ text := by
  obtain ⟨date?, hdate, h⟩ := bind_eq_ok.mp h
  have hstop : ∀ {stop? : Option (List Char)}, (∀ after, stop? = some after → after <:+ text) →
      stop?.map (fun after =>
        (Scalar.moment (String.ofList (text.take (text.length - after.length))), after)) =
          some (value, rest) → rest <:+ text := by
    rintro (_ | after) hafter hfound
    · cases hfound
    · cases hfound
      exact hafter _ rfl
  cases date? with
  | none =>
      obtain ⟨stop?, htime, h⟩ := bind_eq_ok.mp h
      refine hstop (fun after hafter => ?_) (Except.ok.inj h)
      rw [hafter] at htime
      exact afterTime?_suffix htime
  | some day =>
      obtain ⟨stop?, htime, h⟩ := bind_eq_ok.mp h
      refine hstop (fun after hafter => ?_) (Except.ok.inj h)
      rw [hafter] at htime
      exact (afterTimeOfDay_suffix (map_some_eq_ok.mp htime)).trans (afterDate?_suffix hdate)

/-! ### Strings -/

theorem newline?_suffix (h : newline? text = some rest) : rest <:+ text := by
  rcases newline?_cases h with rfl | rfl
  · exact List.suffix_cons _ _
  · exact ⟨['\r', '\n'], rfl⟩

/-- The quotes at the end of a block are taken together, those that still belong to it included. -/
theorem closing?_suffix {form : Form} {quotes : List Char}
    (h : closing? form text = some (quotes, rest)) : rest <:+ text := by
  unfold closing? at h
  split at h
  case isTrue =>
    dsimp only at h
    split at h
    · cases h
    · cases h
      exact List.drop_suffix _ text
  case isFalse =>
    split at h
    case h_1 =>
      split at h
      · cases h
        exact List.suffix_cons _ _
      · cases h
    case h_2 => cases h

/-- **A string leaves what stands behind its closing quotes**, whatever is passed over before them.
-/
theorem stringBody_suffix {form : Form} {mode : Mode} {content : List Char}
    (h : stringBody form mode text = .ok (content, rest)) : rest <:+ text := by
  induction text generalizing mode content with
  | nil => cases mode <;> cases h
  | cons c more ih =>
      rcases stringBody_cases h with ⟨-, hclosing⟩ | ⟨_, _, _, -, hmore, -⟩
      · exact closing?_suffix hclosing
      · exact (ih hmore).trans (List.suffix_cons c more)

/-- A block may take a line ending behind its opening quotes. -/
theorem anyString_suffix {mark : Char} {content : List Char}
    (h : anyString mark text = .ok (content, rest)) : rest <:+ text := by
  unfold anyString at h
  split at h
  case h_1 a b more =>
    split at h
    case isTrue =>
      have hopen : (newline? more).getD more <:+ more := by
        cases hline : newline? more with
        | none => exact List.suffix_rfl
        | some after => exact newline?_suffix hline
      exact (stringBody_suffix h).trans (hopen.trans ⟨[a, b], rfl⟩)
    case isFalse => exact stringBody_suffix h
  case h_2 => exact stringBody_suffix h

/-! ### Values

A value nests, and its readers take the reader of what is inside as a parameter.  So the induction
over the depth is apart from those over the elements of an array and the members of a table: they
need of the inner reader only that it leaves the end of its text.
-/

/-- What is neither a word nor a string is a moment, or else a number. -/
theorem scalar_suffix {content : Scalar} (h : scalar text = .ok (content, rest)) :
    rest <:+ text := by
  unfold scalar at h
  split at h
  case h_1 =>
    cases h
    exact ⟨['t', 'r', 'u', 'e'], rfl⟩
  case h_2 =>
    cases h
    exact ⟨['f', 'a', 'l', 's', 'e'], rfl⟩
  case h_3 c more _ _ =>
    split at h
    case isTrue =>
      obtain ⟨⟨s, after⟩, hstring, h⟩ := bind_eq_ok.mp h
      cases h
      exact (anyString_suffix hstring).trans (List.suffix_cons c more)
    case isFalse =>
      obtain ⟨moment?, hmoment, h⟩ := bind_eq_ok.mp h
      cases moment? with
      | none => exact number_suffix h
      | some =>
          cases h
          exact moment?_suffix hmoment
  case h_4 => cases h

/-- Nothing but spaces, line endings and comments is skipped, inside a comment or not. -/
theorem afterFillerFrom_suffix {inComment : Bool} (h : afterFillerFrom inComment text = .ok rest) :
    rest <:+ text := by
  fun_induction afterFillerFrom inComment text with
  | case1 => cases h
  | case2 =>
      cases h
      exact List.suffix_rfl
  | case3 _ more ih => exact (ih h).trans (List.suffix_cons _ more)
  | case4 _ more ih => exact (ih h).trans ⟨['\r', '\n'], rfl⟩
  | case5 c more _ _ _ ih => exact (ih h).trans (List.suffix_cons c more)
  | case6 => cases h
  | case7 _ c more _ _ _ _ ih => exact (ih h).trans (List.suffix_cons c more)
  | case8 _ more _ _ _ _ ih => exact (ih h).trans (List.suffix_cons _ more)
  | case9 => cases h
  | case10 =>
      cases h
      exact List.suffix_rfl

theorem afterFiller_suffix (h : afterFiller text = .ok rest) : rest <:+ text :=
  afterFillerFrom_suffix h

end

/-- A reader that leaves the end of its text. -/
def ValueReader.LeavesSuffix (read : ValueReader) : Prop :=
  ∀ {text rest : List Char} {node : Node}, read text = .ok (node, rest) → rest <:+ text

theorem leaf_leavesSuffix : ValueReader.LeavesSuffix leaf := by
  intro text rest node h
  obtain ⟨⟨s, after⟩, hscalar, h⟩ := bind_eq_ok.mp h
  cases h
  exact scalar_suffix hscalar

section

variable {read : ValueReader} (hread : read.LeavesSuffix)

include hread

/-- Elements are read up to the closing bracket, with commas between them. -/
theorem elements_suffix {fuel : Nat} {text rest : List Char} {nodes : List Node}
    (h : elements read fuel text = .ok (nodes, rest)) : rest <:+ text := by
  induction fuel generalizing text nodes with
  | zero => cases h
  | succ fuel ih =>
      obtain ⟨start, hstart, h⟩ := bind_eq_ok.mp h
      have hstart : start <:+ text := afterFiller_suffix hstart
      split at h
      case h_1 =>
        cases h
        exact (List.suffix_cons _ _).trans hstart
      case h_2 =>
        obtain ⟨⟨node, left⟩, hnode, h⟩ := bind_eq_ok.mp h
        have hleft : left <:+ text := (hread hnode).trans hstart
        dsimp only at h
        split at h
        case h_1 => cases h
        case h_2 more hfiller =>
          obtain ⟨⟨others, after⟩, hothers, h⟩ := bind_eq_ok.mp h
          cases h
          have hmore : more <:+ left := (List.suffix_cons _ _).trans (afterFiller_suffix hfiller)
          exact (ih hothers).trans (hmore.trans hleft)
        case h_3 after hfiller =>
          cases h
          exact ((List.suffix_cons _ _).trans (afterFiller_suffix hfiller)).trans hleft
        case h_4 => cases h

/-- An assignment takes a path, an equals sign and what its value takes. -/
theorem assignment?_suffix {text rest : List Char} {assignment : Assignment}
    (h : assignment? read text = .ok (some (assignment, rest))) : rest <:+ text := by
  obtain ⟨path?, hpath, h⟩ := bind_eq_ok.mp h
  split at h
  case h_1 => cases h
  case h_2 path left =>
    obtain ⟨⟨node, after⟩, hnode, h⟩ := bind_eq_ok.mp h
    cases h
    have hleft : left <:+ text := (List.suffix_cons '=' left).trans (keyPath?_takes hpath).1.isSuffix
    exact (hread hnode).trans ((List.dropWhile_suffix _).trans hleft)
  case h_3 => cases h

/-- Members are read as long as a comma has one behind it. -/
theorem members_suffix {fuel : Nat} {text rest : List Char} {assignments : List Assignment}
    (h : members read fuel text = .ok (assignments, rest)) : rest <:+ text := by
  induction fuel generalizing text assignments with
  | zero =>
      cases h
      exact List.suffix_rfl
  | succ fuel ih =>
      obtain ⟨first?, hfirst, h⟩ := bind_eq_ok.mp h
      split at h
      case h_1 =>
        cases h
        exact List.suffix_rfl
      case h_2 first after =>
        have hafter : skipSpaces after <:+ text :=
          (List.dropWhile_suffix _).trans (assignment?_suffix hread hfirst)
        split at h
        case h_1 more hcomma =>
          rw [hcomma] at hafter
          obtain ⟨⟨others, stop⟩, hothers, h⟩ := bind_eq_ok.mp h
          split at h
          case h_1 =>
            cases h
            exact hafter
          case h_2 hsome =>
            cases hsome
            cases h
            exact (ih hothers).trans ((List.suffix_cons ',' more).trans hafter)
        case h_2 =>
          cases h
          exact hafter

end

/-- **A value is read from the start of its text**, and what is left is the end of it. -/
theorem valueWithin_leavesSuffix (depth : Nat) : ValueReader.LeavesSuffix (valueWithin depth) := by
  induction depth with
  | zero =>
      intro text rest node h
      unfold valueWithin at h
      split at h
      case h_1 => cases h
      case h_2 => cases h
      case h_3 => exact leaf_leavesSuffix h
  | succ depth ih =>
      intro text rest node h
      unfold valueWithin at h
      split at h
      case h_1 =>
        obtain ⟨⟨nodes, after⟩, hnodes, h⟩ := bind_eq_ok.mp h
        cases h
        exact (elements_suffix ih hnodes).trans (List.suffix_cons _ _)
      case h_2 =>
        obtain ⟨⟨assignments, stop⟩, hmembers, h⟩ := bind_eq_ok.mp h
        obtain ⟨table, -, h⟩ := bind_eq_ok.mp h
        have hstop : skipSpaces stop <:+ stop := List.dropWhile_suffix _
        split at h
        case h_1 hclosing =>
          cases h
          rw [hclosing] at hstop
          have hrest : rest <:+ stop := (List.suffix_cons _ rest).trans hstop
          exact hrest.trans ((members_suffix ih hmembers).trans (List.suffix_cons _ _))
        case h_2 => cases h
      case h_3 => exact leaf_leavesSuffix h

/-! ### Statements -/

/-- A statement is read from the start of its text and takes at least one character. -/
theorem statement_suffix {text next : List Char} {first : Statement}
    (h : statement text = .ok (first, next)) : next <:+ text ∧ next.length < text.length := by
  have hshorter : ∀ {c : Char} {more : List Char}, c :: more <:+ text → next <:+ more →
      next <:+ text ∧ next.length < text.length := by
    intro c more hmore hnext
    have hlength := hmore.length_le
    have hrest := hnext.length_le
    rw [List.length_cons] at hlength
    exact ⟨hnext.trans ((List.suffix_cons c more).trans hmore), by omega⟩
  rcases statement_cases h with ⟨header, more, line, -, -, -, hpath, hline⟩ |
    ⟨assignment, rest, after, line, -, -, hpath, hvalue, hline⟩
  · have hinside : ']' :: more <:+ behindBrackets text := (keyPath?_takes hpath).1.isSuffix
    exact hshorter (hinside.trans (List.drop_suffix _ text)) hline.isSuffix
  · have hrest : '=' :: rest <:+ text := (keyPath?_takes hpath).1.isSuffix
    have hafter : after <:+ rest :=
      (valueWithin_leavesSuffix _ hvalue).trans (List.dropWhile_suffix _)
    exact hshorter hrest (hline.isSuffix.trans hafter)

/-- What the reader finds when it reads a text to its end, `Reads` derives. -/
theorem reads_of_statements {fuel : Nat} {text : List Char} {all : List Statement}
    (hfuel : text.length < fuel) (h : statements fuel text = (all, none)) : Reads text all := by
  induction fuel generalizing text all with
  | zero => omega
  | succ fuel ih =>
      have hskip := length_skipSpaces_le text
      cases hstart : skipSpaces text with
      | nil =>
          have hnone : all = [] := by simpa [statements, hstart, eq_comm] using h
          rw [hnone]
          exact .done hstart
      | cons c more =>
          rw [hstart, List.length_cons] at hskip
          by_cases hcomment : c = '#'
          · subst hcomment
            cases hend : lineEnd ('#' :: more) with
            | error => simp [statements, hstart, hend] at h
            | ok rest =>
                have hmore : statements fuel rest = (all, none) := by
                  simpa [statements, hstart, hend] using h
                obtain ⟨line, hline⟩ := startsWith_of_comment hend
                have hshort := hline.isSuffix.length_le
                exact .comment hstart hend hshort (ih (by omega) hmore)
          · cases hblank : newline? (c :: more) with
            | some rest =>
                have hmore : statements fuel rest = (all, none) := by
                  simpa [statements, hstart, hcomment, hblank] using h
                have hshort := length_of_newline? hblank
                rw [List.length_cons] at hshort
                exact .blank (by rwa [hstart]) (ih (by omega) hmore)
            | none =>
                cases hfirst : statement (c :: more) with
                | error => simp [statements, hstart, hcomment, hblank, hfirst] at h
                | ok result =>
                    obtain ⟨first, rest⟩ := result
                    obtain ⟨-, hshort⟩ := statement_suffix hfirst
                    rw [List.length_cons] at hshort
                    obtain ⟨rfl, hstuck⟩ : first :: (statements fuel rest).1 = all ∧
                        (statements fuel rest).2 = none := by
                      simpa [statements, hstart, hcomment, hblank, hfirst] using h
                    have hmore : statements fuel rest = ((statements fuel rest).1, none) :=
                      Prod.ext rfl hstuck
                    exact .step hstart hcomment hblank hfirst (by omega) (ih (by omega) hmore)

end Salutation.Toml
