/-
Command lines cut into pieces.

A piece is one argument that uses options, with the argument behind it if that is the value of
the last of them.  The options in a piece are spelled in any of the ways there are: by a long
name or by letters, with the value attached or in an argument of its own.  Which arguments
belong together can be told from the arguments alone, so a row of pieces says what a command
line uses without any account of how it is read.

Two facts tie pieces to the reader.  In front of any arguments, a piece is read as a whole, from
a state that awaits nothing to another one (`scan_piece`).  And a reader that gets to the end
has read nothing but pieces (`exists_pieces`): what is no piece is an error, and so is an option
that is still left without its value when it has to be settled.
-/
import Mathlib.Data.List.TakeWhile
import Salutation.Proofs.CommandLine.Spelling

namespace Salutation.CommandLine

/-! ### Pieces -/

/-- A value, in the argument of its option or in one of its own. -/
inductive Placed where
  | attached (value : Bytes)
  | apart (value : Bytes)

/-- The arguments of an option with its value, if the option is spelled in one way and a sign
stands between it and a value attached. -/
def Placed.arguments (option sign : Bytes) : Placed → List Bytes
  | .attached value => [option ++ (sign ++ value)]
  | .apart value => [option, value]

/-- Whether a value may stand where it does.  In an argument of its own only a message may look
like an option. -/
def Placed.Suits (opt : Opt) : Placed → Prop
  | .attached _ => True
  | .apart value => opt = .message ∨ Argument.ofBytes value = .word value

/-- The bytes of an option's letter. -/
def Opt.letterBytes (opt : Opt) : Bytes := Utf8.encode opt.letter?.toList

/-- One argument that uses options, with the argument behind it if that is a value. -/
inductive Piece where
  /-- The long name of an option that takes no value. -/
  | flag (opt : Opt)
  /-- Letters that count: so many, and one more. -/
  | letters (more : Nat)
  /-- The long name of an option with its value. -/
  | long (opt : Opt) (placed : Placed)
  /-- The letter of an option with its value, behind so many letters that count. -/
  | letter (before : Nat) (opt : Opt) (placed : Placed)

namespace Piece

/-- The arguments of a piece. -/
def arguments : Piece → List Bytes
  | .flag opt => [dash :: dash :: opt.longBytes]
  | .letters more => [dash :: List.replicate (more + 1) verboseByte]
  | .long opt placed => placed.arguments (dash :: dash :: opt.longBytes) [equalsSign]
  | .letter before opt placed =>
    placed.arguments (dash :: (List.replicate before verboseByte ++ opt.letterBytes)) []

theorem length_arguments_pos (piece : Piece) : 0 < piece.arguments.length := by
  cases piece with
  | flag opt | letters more => exact Nat.one_pos
  | long opt placed | letter before opt placed => cases placed <;> exact Nat.succ_pos _

/-- How often a piece asks for one step more of verbosity. -/
def steps : Piece → Nat
  | .flag opt => if opt = .verbose then 1 else 0
  | .letters more => more + 1
  | .long _ _ => 0
  | .letter before _ _ => before

/-- Whether a piece can stand in a scope.  A letter has nothing attached if nothing follows. -/
def Fits (scope : Scope) : Piece → Prop
  | .flag opt => opt.isIn scope = true ∧ opt.takesValue = false
  | .letters _ => True
  | .long opt placed => opt.isIn scope = true ∧ opt.takesValue = true ∧ placed.Suits opt
  | .letter _ opt placed =>
    opt.isIn scope = true ∧ opt.takesValue = true ∧ placed.Suits opt ∧ placed ≠ .attached []

end Piece

/-! ### Options and their spellings -/

theorem Scope.eq_of_long? {scope : Scope} {name : String} {opt : Opt}
    (h : scope.long? name = some opt) : opt.long = name ∧ opt.isIn scope = true := by
  have hname := List.find?_some h
  have hmem := List.mem_of_find?_eq_some h
  exact ⟨by simpa using hname, (List.mem_filter.mp hmem).2⟩

theorem Scope.eq_of_letter? {scope : Scope} {c : Char} {opt : Opt}
    (h : scope.letter? c = some opt) : opt.letter? = some c ∧ opt.isIn scope = true := by
  have hletter := List.find?_some h
  have hmem := List.mem_of_find?_eq_some h
  exact ⟨by simpa using hletter, (List.mem_filter.mp hmem).2⟩

/-- An option that is found by bytes is found by its long name. -/
theorem eq_longBytes_of_found {scope : Scope} {name : Bytes} {opt : Opt}
    (h : ((Utf8.decode? name).bind fun text => scope.long? (String.ofList text)) = some opt) :
    name = opt.longBytes ∧ opt.isIn scope = true := by
  obtain ⟨text, htext, hlong⟩ := Option.bind_eq_some_iff.mp h
  obtain ⟨hname, hscope⟩ := Scope.eq_of_long? hlong
  refine ⟨?_, hscope⟩
  rw [Opt.longBytes, hname, bytesOf, String.toList_ofList]
  exact (Utf8.decode?_eq_some_iff.mp htext).symm

/-- A first character is spelled by the bytes in front of the rest. -/
theorem eq_append_of_uncons? {bytes rest : Bytes} {c : Char}
    (h : Utf8.uncons? bytes = some (c, rest)) : bytes = Utf8.encode [c] ++ rest := by
  obtain ⟨n, -, hn⟩ := List.exists_of_findSome?_eq_some h
  split at hn
  case h_1 first hfirst =>
    obtain ⟨rfl, rfl⟩ : first = c ∧ bytes.drop n = rest := by simpa using hn
    rw [Utf8.decode?_eq_some_iff.mp hfirst, List.take_append_drop]
  case h_2 => cases hn

/-- An option that takes a value is found by its letter, whatever is behind it. -/
theorem Opt.letter_of_takesValue {opt : Opt} {scope : Scope} (hscope : opt.isIn scope = true)
    (htakes : opt.takesValue = true) :
    ∃ b c, opt.letterBytes = [b] ∧ b ≠ dash ∧ scope.letter? c = some opt ∧
      ∀ rest, Utf8.uncons? (b :: rest) = some (c, rest) := by
  cases opt with
  | name =>
      refine ⟨0x6E, 'n', by decide, by decide, ?_, fun rest => rfl⟩
      revert hscope
      cases scope <;> decide
  | message =>
      refine ⟨0x6D, 'm', by decide, by decide, ?_, fun rest => rfl⟩
      revert hscope
      cases scope <;> decide
  | config =>
      refine ⟨0x63, 'c', by decide, by decide, ?_, fun rest => rfl⟩
      cases scope <;> decide
  | json | verbose | help | version => cases htakes

/-! ### What one use counts -/

/-- A state in which so many steps have been counted so far. -/
structure Counts (state : State) (steps : Nat) : Prop where
  verbose : state.verbose = min 255 steps
  used : .verbose ∈ state.used ↔ 0 < steps
  /-- The option that counts is never left to be settled. -/
  pending : ∀ value?, state.pending ≠ some (.verbose, value?)

/-- Nothing is counted at first. -/
theorem counts_zero : Counts {} 0 where
  verbose := rfl
  used := by simp
  pending := by simp

section

variable {scope : Scope} {opt : Opt} {state next : State} {value : Bytes} {steps : Nat}

/-- A value that is stored counts nothing. -/
theorem Counts.store (h : Counts state steps) (hopt : opt ≠ .verbose)
    (hstore : state.store scope opt value = .ok next) :
    Counts next steps ∧ next.pending = state.pending := by
  -- Whatever field is set, the option comes to the end of those used and the rest stays.
  have hkeeps : next.verbose = state.verbose ∧ next.used = state.used ++ [opt] ∧
      next.pending = state.pending := by
    unfold State.store at hstore
    split at hstore
    · cases hstore
    · cases opt with
      | name | message =>
          dsimp only at hstore
          cases htext : State.textValue scope value with
          | error stop =>
              rw [htext] at hstore
              cases hstore
          | ok text =>
              rw [htext] at hstore
              cases hstore
              exact ⟨rfl, rfl, rfl⟩
      | config =>
          dsimp only at hstore
          split at hstore
          · cases hstore
          · cases hstore
            exact ⟨rfl, rfl, rfl⟩
      | json | verbose | help | version =>
          cases hstore
          exact ⟨rfl, rfl, rfl⟩
  obtain ⟨hverbose, hused, hpending⟩ := hkeeps
  refine ⟨⟨hverbose.trans h.verbose, ?_, hpending ▸ h.pending⟩, hpending⟩
  rw [hused, ← h.used]
  simp [hopt.symm]

theorem Counts.settle (h : Counts state steps) (hsettle : state.settle scope = .ok next) :
    Counts next steps ∧ next.pending = none := by
  unfold State.settle at hsettle
  split at hsettle
  case h_1 hpending =>
    cases hsettle
    exact ⟨h, hpending⟩
  case h_2 => cases hsettle
  case h_3 opt value hpending =>
    have hopt : opt ≠ .verbose := by
      rintro rfl
      exact h.pending _ hpending
    have hclear : Counts { state with pending := none } steps := ⟨h.verbose, h.used, by simp⟩
    exact hclear.store hopt hsettle

/-- A flag counts if it is the one for the verbosity. -/
theorem Counts.setFlag (h : Counts state steps) (hflag : opt.takesValue = false)
    (hset : state.setFlag scope opt = .ok next) :
    Counts next (steps + if opt = .verbose then 1 else 0) ∧ next.pending = none := by
  unfold State.setFlag at hset
  split at hset
  case h_1 => cases hset
  case h_2 settled hsettle =>
    obtain ⟨hcounts, hpending⟩ := h.settle hsettle
    cases opt with
    | name | message | config => cases hflag
    | help | version => cases hset
    | json =>
        dsimp only at hset
        split at hset
        · cases hset
        · cases hset
          exact ⟨⟨hcounts.verbose, by simpa using hcounts.used, hcounts.pending⟩, hpending⟩
    | verbose =>
        cases hset
        have hverbose : min 255 (settled.verbose + 1) = min 255 (steps + 1) := by
          rw [hcounts.verbose]
          omega
        exact ⟨⟨hverbose, by simp, hcounts.pending⟩, hpending⟩

theorem Counts.attach (h : Counts state steps) (hopt : opt ≠ .verbose)
    (hattach : state.attach scope opt value = .ok next) :
    Counts next steps ∧ next.pending = none := by
  unfold State.attach at hattach
  split at hattach
  case h_1 => cases hattach
  case h_2 settled hsettle =>
    obtain ⟨hcounts, hpending⟩ := h.settle hsettle
    obtain ⟨hnext, hsame⟩ := hcounts.store hopt hattach
    exact ⟨hnext, hsame.trans hpending⟩

theorem Counts.await (h : Counts state steps) (hopt : opt ≠ .verbose)
    (hawait : state.await scope opt = .ok next) :
    Counts next steps ∧ next.awaiting? = some opt := by
  unfold State.await at hawait
  split at hawait
  case h_1 => cases hawait
  case h_2 settled hsettle =>
    obtain ⟨hcounts, -⟩ := h.settle hsettle
    cases hawait
    exact ⟨⟨hcounts.verbose, hcounts.used, by simp [hopt]⟩, rfl⟩

/-- A value that was awaited counts nothing when it comes. -/
theorem Counts.take (h : Counts state steps) (hopt : opt ≠ .verbose) :
    Counts { state with pending := some (opt, some value) } steps :=
  ⟨h.verbose, h.used, by simp [hopt]⟩

end

/-! ### One argument in front of the others

The reader knows an argument by its form and never sees its bytes again, and a piece is made of
bytes.  That forms can be turned back into bytes is what lets an argument that was read be found
again as a piece.
-/

/-- An argument of a given form. -/
def Argument.bytes : Argument → Bytes
  | .dashes => [dash, dash]
  | .long name none => dash :: dash :: name
  | .long name (some value) => dash :: dash :: (name ++ equalsSign :: value)
  | .letters bytes => dash :: bytes
  | .word bytes => bytes

/-- Without an equals sign there is no value. -/
theorem splitValue_of_not_mem {bytes : Bytes} (h : equalsSign ∉ bytes) :
    splitValue bytes = (bytes, none) := by
  have hname : bytes.takeWhile (· ≠ equalsSign) = bytes := by
    rw [List.takeWhile_eq_self_iff]
    intro b hb
    have hne : b ≠ equalsSign := fun hsame => h (hsame ▸ hb)
    simpa using hne
  unfold splitValue
  simp only [hname, if_neg h]

/-- A long option is its name, with an equals sign between it and its value. -/
theorem bytes_splitValue (bytes : Bytes) :
    (Argument.long (splitValue bytes).1 (splitValue bytes).2).bytes = dash :: dash :: bytes := by
  by_cases hmem : equalsSign ∈ bytes
  · obtain ⟨name, value, rfl, hname⟩ := List.eq_append_cons_of_mem hmem
    rw [splitValue_append hname]
    rfl
  · rw [splitValue_of_not_mem hmem]
    rfl

/-- Nothing of an argument is lost in its form. -/
theorem bytes_ofBytes (bytes : Bytes) : (Argument.ofBytes bytes).bytes = bytes := by
  unfold Argument.ofBytes
  split
  case h_1 a b rest =>
    split
    case isTrue hdashes =>
      obtain ⟨rfl, rfl⟩ : a = dash ∧ b = dash := by simpa using hdashes
      split
      case isTrue hempty => simp [Argument.bytes, List.isEmpty_iff.mp hempty]
      case isFalse => exact bytes_splitValue rest
    case isFalse =>
      split
      case isTrue hdash => rw [hdash]; rfl
      case isFalse => rfl
  case h_2 => rfl

/-- An argument of letters has at least one. -/
theorem letters_ne_nil {bytes letters : Bytes} (h : Argument.ofBytes bytes = .letters letters) :
    letters ≠ [] := by
  unfold Argument.ofBytes at h
  grind

theorem ofBytes_longBytes (opt : Opt) :
    Argument.ofBytes (dash :: dash :: opt.longBytes) = .long opt.longBytes none := by
  have hne : opt.longBytes ≠ [] := by
    cases opt <;> decide
  rw [Argument.ofBytes_long hne, splitValue_of_not_mem opt.equalsSign_not_mem_longBytes]

theorem ofBytes_longBytes_append (opt : Opt) (value : Bytes) :
    Argument.ofBytes (dash :: dash :: opt.longBytes ++ ([equalsSign] ++ value)) =
      .long opt.longBytes (some value) := by
  rw [List.cons_append, List.cons_append, List.singleton_append,
    Argument.ofBytes_long (by simp), splitValue_append opt.equalsSign_not_mem_longBytes]

/-! ### Options without their values

An option that awaits its value takes the next argument, if that may be a value.  Any other argument
settles the option first, and so does the end, and an option without its value cannot be settled.
So a reader that gets to the end was given the value.
-/

section

variable {scope : Scope} {opt : Opt} {state next final settled : State} {arguments : List Bytes}
  {left : Option (List Bytes)}

/-- An option cannot be settled before its value has come. -/
theorem settle_of_awaiting (scope : Scope) (h : state.awaiting? = some opt) :
    state.settle scope = .error (.mistake (.valueMissing opt) (.general scope)) := by
  have hpending : state.pending = some (opt, none) := by
    unfold State.awaiting? at h
    split at h
    case h_1 hpending =>
      cases h
      exact hpending
    case h_2 => cases h
  simp [State.settle, hpending, State.fail]

theorem readLong_of_awaiting (h : state.awaiting? = some opt) (name : Bytes)
    (value : Option Bytes) : state.readLong scope name value ≠ .ok next := by
  have hsettle := settle_of_awaiting scope h
  unfold State.readLong State.attach State.await State.setFlag
  simp only [hsettle]
  grind

theorem readLetters_of_awaiting (h : state.awaiting? = some opt) {letters : Bytes}
    (hletters : letters ≠ []) :
    state.readLetters scope letters.length letters ≠ .ok next := by
  have hsettle := settle_of_awaiting scope h
  cases letters with
  | nil => exact absurd rfl hletters
  | cons b more =>
      rw [List.length_cons, State.readLetters]
      · unfold State.attach State.await State.setFlag State.fail
        simp only [hsettle]
        grind
      · simp

/-- Behind a double dash nothing can stand. -/
theorem scan_behind_dashes (h : scan scope true state arguments = .ok (final, left)) :
    arguments = [] ∧ final = state ∧ left = none := by
  cases arguments with
  | nil =>
      rw [scan] at h
      cases h
      exact ⟨rfl, rfl, rfl⟩
  | cons word more =>
      rw [scan] at h
      cases h

/-- An option that awaits its value gets it from the next argument, which has to be there and
may look like an option only if it is a message. -/
theorem value_of_awaiting (hawaiting : state.awaiting? = some opt)
    (h : scan scope false state arguments = .ok (final, left))
    (hsettle : final.settle scope = .ok settled) :
    ∃ value more, arguments = value :: more ∧
      (opt = .message ∨ Argument.ofBytes value = .word value) := by
  have hstuck : final ≠ state := by
    rintro rfl
    rw [settle_of_awaiting scope hawaiting] at hsettle
    cases hsettle
  cases arguments with
  | nil =>
      rw [scan] at h
      cases h
      exact absurd rfl hstuck
  | cons value more =>
      refine ⟨value, more, rfl, ?_⟩
      by_cases hmessage : opt = .message
      · exact Or.inl hmessage
      refine Or.inr ?_
      cases hform : Argument.ofBytes value with
      | word word =>
          have hbytes := bytes_ofBytes value
          rw [hform] at hbytes
          exact congrArg Argument.word hbytes
      | dashes =>
          rw [scan_form (by simp [hawaiting, hmessage]) (by simp [hform])] at h
          simp only [hform] at h
          exact absurd (scan_behind_dashes h).2.1 hstuck
      | long name value? =>
          rw [scan_form (by simp [hawaiting, hmessage]) (by simp [hform])] at h
          simp only [hform] at h
          split at h
          · cases h
          · rename_i hread
            exact absurd hread (readLong_of_awaiting hawaiting name value?)
      | letters letters =>
          rw [scan_form (by simp [hawaiting, hmessage]) (by simp [hform])] at h
          simp only [hform] at h
          split at h
          · cases h
          · rename_i hread
            exact absurd hread (readLetters_of_awaiting hawaiting (letters_ne_nil hform))

/-- The value that an option awaits is put beside it. -/
theorem scan_apart (hawaiting : state.awaiting? = some opt) {value : Bytes}
    (hsuits : (Placed.apart value).Suits opt) (rest : List Bytes) :
    scan scope false state (value :: rest) =
      scan scope false { state with pending := some (opt, some value) } rest := by
  by_cases hmessage : opt = .message
  · subst hmessage
    exact scan_message hawaiting value rest
  · have hword : Argument.ofBytes value = .word value := hsuits.resolve_left hmessage
    rw [scan]
    simp only [hawaiting, hword]
    cases opt with
    | message => exact absurd rfl hmessage
    | name | config | json | verbose | help | version => simp

end

/-! ### A piece is read whole

From a state that awaits nothing, the arguments of a piece lead to another such state, whatever
comes behind them.  What the piece counts is what the reader has counted between the two, so the
counts of a row of pieces add up.  That reading succeeds is a hypothesis, because it depends on more
than the piece: an option that is used twice is refused, and so is a value that is no text.
-/

section

variable {scope : Scope} {opt : Opt} {state next final : State} {steps : Nat} {rest : List Bytes}
  {left : Option (List Bytes)}

theorem Opt.ne_verbose_of_takesValue (h : opt.takesValue = true) : opt ≠ .verbose := by
  rintro rfl
  cases h

theorem awaiting_of_pending (h : state.pending = none) : state.awaiting? = none := by
  simp [State.awaiting?, h]

/-- Letters that count are read one by one in front of what follows them. -/
theorem Counts.readLetters (h : Counts state steps) (hawaiting : state.awaiting? = none)
    {count fuel : Nat} {tail : Bytes}
    (hread : state.readLetters scope (count + fuel)
      (List.replicate count verboseByte ++ tail) = .ok next) :
    ∃ between, between.readLetters scope fuel tail = .ok next ∧
      Counts between (steps + count) ∧ between.awaiting? = none := by
  induction count generalizing state steps with
  | zero =>
      rw [List.replicate_zero, List.nil_append, Nat.zero_add] at hread
      exact ⟨state, hread, h, hawaiting⟩
  | succ count ih =>
      rw [List.replicate_succ, List.cons_append, Nat.succ_add] at hread
      cases hset : state.setFlag scope .verbose with
      | error stop =>
          rw [State.readLetters] at hread
          · simp only [uncons?_verboseByte, letter?_verbose, hset] at hread
            cases hread
          · simp
      | ok after =>
          rw [readLetters_cons _ _ hset] at hread
          obtain ⟨hcounts, hpending⟩ := h.setFlag rfl hset
          obtain ⟨between, hlater, hbetween, hnone⟩ :=
            ih hcounts (awaiting_of_pending hpending) hread
          refine ⟨between, hlater, ?_, hnone⟩
          rwa [if_pos rfl, Nat.add_assoc, Nat.add_comm 1] at hbetween

/-- An option that takes a value is read by its letter behind letters that count.  What is left
of the argument is the value, or the value comes next. -/
theorem Counts.readLetters_value (h : Counts state steps) (hawaiting : state.awaiting? = none)
    (hscope : opt.isIn scope = true) (htakes : opt.takesValue = true) {before : Nat}
    {value : Bytes}
    (hread : state.readLetters scope
      (List.replicate before verboseByte ++ (opt.letterBytes ++ value)).length
      (List.replicate before verboseByte ++ (opt.letterBytes ++ value)) = .ok next) :
    ∃ between, Counts between (steps + before) ∧
      (value = [] → between.await scope opt = .ok next) ∧
      (value ≠ [] → ∃ attached, between.attach scope opt attached = .ok next) := by
  obtain ⟨b, c, hbytes, -, hletter, huncons⟩ := Opt.letter_of_takesValue hscope htakes
  have hlength : (List.replicate before verboseByte ++ (opt.letterBytes ++ value)).length =
      before + (value.length + 1) := by
    simp [hbytes]
  rw [hlength] at hread
  obtain ⟨between, hvalue, hcounts, -⟩ := h.readLetters hawaiting hread
  rw [hbytes, List.singleton_append, State.readLetters] at hvalue
  · simp only [huncons, hletter, htakes, if_true] at hvalue
    refine ⟨between, hcounts, ?_, ?_⟩
    · rintro rfl
      exact hvalue
    · intro hvalue?
      cases value with
      | nil => exact absurd rfl hvalue?
      | cons b more => exact ⟨_, hvalue⟩
  · simp

theorem ofBytes_letterBytes (hscope : opt.isIn scope = true) (htakes : opt.takesValue = true)
    (before : Nat) (value : Bytes) :
    Argument.ofBytes (dash :: (List.replicate before verboseByte ++ (opt.letterBytes ++ value))) =
      .letters (List.replicate before verboseByte ++ (opt.letterBytes ++ value)) := by
  obtain ⟨b, -, hbytes, hdash, -, -⟩ := Opt.letter_of_takesValue hscope htakes
  cases before with
  | zero =>
      rw [List.replicate_zero, List.nil_append, hbytes, List.singleton_append]
      exact Argument.ofBytes_letters hdash value
  | succ before => exact Argument.ofBytes_letters (by decide) _

/-- A long option is read before the arguments behind it. -/
theorem scan_long_ok {bytes name : Bytes} {value : Option Bytes}
    (hawaiting : state.awaiting? = none) (hform : Argument.ofBytes bytes = .long name value)
    (h : scan scope false state (bytes :: rest) = .ok (final, left)) :
    ∃ next, state.readLong scope name value = .ok next ∧
      scan scope false next rest = .ok (final, left) := by
  rw [scan_form (by simp [hawaiting]) (by simp [hform])] at h
  simp only [hform] at h
  split at h
  case h_1 => cases h
  case h_2 next hread => exact ⟨next, hread, h⟩

/-- Letters are read before the arguments behind them. -/
theorem scan_letters_ok {bytes letters : Bytes} (hawaiting : state.awaiting? = none)
    (hform : Argument.ofBytes bytes = .letters letters)
    (h : scan scope false state (bytes :: rest) = .ok (final, left)) :
    ∃ next, state.readLetters scope letters.length letters = .ok next ∧
      scan scope false next rest = .ok (final, left) := by
  rw [scan_form (by simp [hawaiting]) (by simp [hform])] at h
  simp only [hform] at h
  split at h
  case h_1 => cases h
  case h_2 next hread => exact ⟨next, hread, h⟩

/-- A value in an argument of its own counts nothing. -/
theorem Counts.scan_apart (h : Counts state steps) (hopt : opt ≠ .verbose)
    (hawait : state.await scope opt = .ok next) {value : Bytes}
    (hsuits : (Placed.apart value).Suits opt)
    (hscan : scan scope false next (value :: rest) = .ok (final, left)) :
    ∃ next, scan scope false next rest = .ok (final, left) ∧
      Counts next steps ∧ next.awaiting? = none := by
  obtain ⟨hcounts, hawaiting⟩ := h.await hopt hawait
  rw [CommandLine.scan_apart hawaiting hsuits] at hscan
  exact ⟨_, hscan, hcounts.take hopt, rfl⟩

/-- **A piece is read whole, in front of any arguments, and its steps are counted.** -/
theorem scan_piece {piece : Piece} (hfits : piece.Fits scope) (h : Counts state steps)
    (hawaiting : state.awaiting? = none)
    (hscan : scan scope false state (piece.arguments ++ rest) = .ok (final, left)) :
    ∃ next, scan scope false next rest = .ok (final, left) ∧
      Counts next (steps + piece.steps) ∧ next.awaiting? = none := by
  cases piece with
  | flag opt =>
      obtain ⟨hscope, hflag⟩ := hfits
      obtain ⟨next, hread, hrest⟩ := scan_long_ok hawaiting (ofBytes_longBytes opt) hscan
      rw [readLong_flag hscope hflag] at hread
      obtain ⟨hcounts, hpending⟩ := h.setFlag hflag hread
      exact ⟨next, hrest, hcounts, awaiting_of_pending hpending⟩
  | letters more =>
      have hform : Argument.ofBytes (dash :: List.replicate (more + 1) verboseByte) =
          .letters (List.replicate (more + 1) verboseByte) :=
        Argument.ofBytes_letters (by decide) _
      obtain ⟨next, hread, hrest⟩ := scan_letters_ok hawaiting hform hscan
      have hsplit : state.readLetters scope (more + 1 + 0)
          (List.replicate (more + 1) verboseByte ++ []) = .ok next := by
        simpa using hread
      obtain ⟨between, hend, hcounts, hnone⟩ := h.readLetters hawaiting hsplit
      cases hend
      exact ⟨next, hrest, hcounts, hnone⟩
  | long opt placed =>
      obtain ⟨hscope, htakes, hsuits⟩ := hfits
      have hopt := Opt.ne_verbose_of_takesValue htakes
      cases placed with
      | attached value =>
          obtain ⟨next, hread, hrest⟩ :=
            scan_long_ok hawaiting (ofBytes_longBytes_append opt value) hscan
          rw [readLong_attached hscope htakes] at hread
          obtain ⟨hcounts, hpending⟩ := h.attach hopt hread
          exact ⟨next, hrest, hcounts, awaiting_of_pending hpending⟩
      | apart value =>
          obtain ⟨next, hread, hrest⟩ := scan_long_ok hawaiting (ofBytes_longBytes opt) hscan
          rw [readLong_apart hscope htakes] at hread
          exact h.scan_apart hopt hread hsuits hrest
  | letter before opt placed =>
      obtain ⟨hscope, htakes, hsuits, hattached⟩ := hfits
      have hopt := Opt.ne_verbose_of_takesValue htakes
      cases placed with
      | attached value =>
          have hform := ofBytes_letterBytes hscope htakes before value
          obtain ⟨next, hread, hrest⟩ :=
            scan_letters_ok hawaiting hform (by simpa [Piece.arguments, Placed.arguments] using hscan)
          obtain ⟨between, hcounts, -, hattach⟩ :=
            h.readLetters_value hawaiting hscope htakes hread
          obtain ⟨text, hattach⟩ := hattach (by simpa using hattached)
          obtain ⟨hcounts, hpending⟩ := hcounts.attach hopt hattach
          exact ⟨next, hrest, hcounts, awaiting_of_pending hpending⟩
      | apart value =>
          have hform := ofBytes_letterBytes hscope htakes before []
          obtain ⟨next, hread, hrest⟩ :=
            scan_letters_ok hawaiting hform (by simpa [Piece.arguments, Placed.arguments] using hscan)
          obtain ⟨between, hcounts, hawait, -⟩ :=
            h.readLetters_value hawaiting hscope htakes hread
          exact hcounts.scan_apart hopt (hawait rfl) hsuits hrest

/-! ### Nothing is read but pieces

The other direction: what the reader takes without an error falls into pieces.  The induction is on
the arguments, with a reader that awaits nothing, and a value in an argument of its own is taken
together with its option.
-/

/-- A flag that is set without an end of the run asks for no text. -/
theorem isQuestion_of_setFlag (h : state.setFlag scope opt = .ok next) :
    opt.isQuestion = false := by
  unfold State.setFlag at h
  split at h
  · cases h
  · cases opt with
    | help | version => cases h
    | name | message | config | json | verbose => rfl

/-- The letter of an option that takes no value and asks for no text is the one that counts. -/
theorem Opt.eq_verbose_of_letter {c : Char} (hletter : opt.letter? = some c)
    (htakes : opt.takesValue = false) (hquestion : opt.isQuestion = false) :
    opt = .verbose ∧ c = 'v' := by
  cases opt with
  | verbose =>
      cases hletter
      exact ⟨rfl, rfl⟩
  | json => cases hletter
  | name | message | config => cases htakes
  | help | version => cases hquestion

/-- Letters that are read are letters that count, and perhaps behind them the letter of an
option that takes a value. -/
theorem letters_cases {fuel : Nat} {letters : Bytes} (hfuel : letters.length ≤ fuel)
    (hread : state.readLetters scope fuel letters = .ok next) :
    ∃ count tail, letters = List.replicate count verboseByte ++ tail ∧
      (tail = [] ∨ ∃ (opt : Opt) (value : Bytes), tail = opt.letterBytes ++ value ∧
        opt.isIn scope = true ∧ opt.takesValue = true) := by
  induction fuel generalizing letters state with
  | zero =>
      have hnil : letters = [] := List.length_eq_zero_iff.mp (by omega)
      exact ⟨0, [], by simp [hnil], Or.inl rfl⟩
  | succ fuel ih =>
      cases letters with
      | nil => exact ⟨0, [], rfl, Or.inl rfl⟩
      | cons b more =>
          unfold State.readLetters at hread
          split at hread
          case h_1 => cases hread
          case h_2 c rest huncons =>
            have hletters := eq_append_of_uncons? huncons
            split at hread
            case h_1 => cases hread
            case h_2 opt hfound =>
              obtain ⟨hletter, hscope⟩ := Scope.eq_of_letter? hfound
              cases htakes : opt.takesValue with
              | true =>
                  refine ⟨0, b :: more, rfl, Or.inr ⟨opt, rest, ?_, hscope, htakes⟩⟩
                  rw [hletters, Opt.letterBytes, hletter]
                  rfl
              | false =>
                  rw [if_neg (by simp [htakes])] at hread
                  split at hread
                  case h_1 => cases hread
                  case h_2 after hset =>
                    obtain ⟨-, rfl⟩ :=
                      Opt.eq_verbose_of_letter hletter htakes (isQuestion_of_setFlag hset)
                    obtain ⟨rfl, rfl⟩ : b = verboseByte ∧ more = rest := List.cons.inj hletters
                    obtain ⟨count, tail, hmore, htail⟩ := ih (Nat.le_of_succ_le_succ hfuel) hread
                    exact ⟨count + 1, tail, by rw [hmore]; rfl, htail⟩

/-- A piece comes first among some arguments. -/
def StartsWithPiece (scope : Scope) (arguments : List Bytes) : Prop :=
  ∃ (piece : Piece) (more : List Bytes), piece.Fits scope ∧ arguments = piece.arguments ++ more

/-- A long option is the first argument of a piece. -/
theorem startsWithPiece_of_long {name : Bytes} {value? : Option Bytes} {settled : State}
    (h : Counts state steps) (hread : state.readLong scope name value? = .ok next)
    (hscan : scan scope false next rest = .ok (final, left))
    (hsettle : final.settle scope = .ok settled) :
    StartsWithPiece scope ((Argument.long name value?).bytes :: rest) := by
  cases hfound : (Utf8.decode? name).bind fun text => scope.long? (String.ofList text) with
  | none =>
      unfold State.readLong at hread
      simp only [hfound] at hread
      cases hread
  | some opt =>
      obtain ⟨rfl, hscope⟩ := eq_longBytes_of_found hfound
      cases htakes : opt.takesValue with
      | true =>
          cases value? with
          | some value =>
              exact ⟨.long opt (.attached value), rest, ⟨hscope, htakes, trivial⟩, rfl⟩
          | none =>
              rw [readLong_apart hscope htakes] at hread
              obtain ⟨-, hvalue⟩ := h.await (Opt.ne_verbose_of_takesValue htakes) hread
              obtain ⟨value, more, rfl, hsuits⟩ := value_of_awaiting hvalue hscan hsettle
              exact ⟨.long opt (.apart value), more, ⟨hscope, htakes, hsuits⟩, rfl⟩
      | false =>
          cases value? with
          | some value =>
              unfold State.readLong at hread
              simp [hfound, htakes] at hread
          | none => exact ⟨.flag opt, rest, ⟨hscope, htakes⟩, rfl⟩

/-- An argument of letters is the first argument of a piece. -/
theorem startsWithPiece_of_letters {letters : Bytes} {settled : State} (h : Counts state steps)
    (hawaiting : state.awaiting? = none) (hletters : letters ≠ [])
    (hread : state.readLetters scope letters.length letters = .ok next)
    (hscan : scan scope false next rest = .ok (final, left))
    (hsettle : final.settle scope = .ok settled) :
    StartsWithPiece scope ((dash :: letters) :: rest) := by
  obtain ⟨count, tail, rfl, rfl | ⟨opt, value, rfl, hscope, htakes⟩⟩ :=
    letters_cases (Nat.le_refl _) hread
  · cases count with
    | zero => exact absurd rfl hletters
    | succ more => exact ⟨.letters more, rest, trivial, by rw [List.append_nil]; rfl⟩
  · by_cases hvalue : value = []
    · subst hvalue
      obtain ⟨between, hcounts, hawait, -⟩ := h.readLetters_value hawaiting hscope htakes hread
      obtain ⟨-, hvalue⟩ := hcounts.await (Opt.ne_verbose_of_takesValue htakes) (hawait rfl)
      obtain ⟨value, more, rfl, hsuits⟩ := value_of_awaiting hvalue hscan hsettle
      refine ⟨.letter count opt (.apart value), more, ⟨hscope, htakes, hsuits, nofun⟩, ?_⟩
      rw [List.append_nil]
      rfl
    · refine ⟨.letter count opt (.attached value), rest,
        ⟨hscope, htakes, trivial, by simpa using hvalue⟩, ?_⟩
      simp [Piece.arguments, Placed.arguments]

/-- What a reader that awaits nothing and gets to the end can find next: the word for the
command, a double dash at the end, or a piece. -/
theorem scan_cases {bytes : Bytes} {settled : State} (h : Counts state steps)
    (hawaiting : state.awaiting? = none)
    (hscan : scan scope false state (bytes :: rest) = .ok (final, left))
    (hsettle : final.settle scope = .ok settled) :
    (scope = .main ∧ bytes = configWord ∧ left = some rest) ∨
    (bytes = [dash, dash] ∧ rest = [] ∧ left = none) ∨
    StartsWithPiece scope (bytes :: rest) := by
  have hbytes := bytes_ofBytes bytes
  cases hform : Argument.ofBytes bytes with
  | dashes =>
      rw [scan_form (by simp [hawaiting]) (by simp [hform])] at hscan
      simp only [hform] at hscan
      obtain ⟨hrest, -, hleft⟩ := scan_behind_dashes hscan
      rw [hform] at hbytes
      exact Or.inr (Or.inl ⟨hbytes.symm, hrest, hleft⟩)
  | long name value? =>
      obtain ⟨next, hread, hrest⟩ := scan_long_ok hawaiting hform hscan
      rw [← hbytes, hform]
      exact Or.inr (Or.inr (startsWithPiece_of_long h hread hrest hsettle))
  | letters letters =>
      obtain ⟨next, hread, hrest⟩ := scan_letters_ok hawaiting hform hscan
      rw [← hbytes, hform]
      exact Or.inr (Or.inr
        (startsWithPiece_of_letters h hawaiting (letters_ne_nil hform) hread hrest hsettle))
  | word word =>
      rw [scan] at hscan
      simp only [hawaiting, hform, decide_true, Bool.true_and, Bool.and_eq_true,
        decide_eq_true_eq] at hscan
      split at hscan
      case isTrue hcommand =>
        cases hscan
        exact Or.inl ⟨hcommand.1, hcommand.2, rfl⟩
      case isFalse =>
        split at hscan <;> cases hscan

/-- A run that gets to the end of a scope's arguments, or to the word for the command, has read
nothing but pieces. -/
theorem exists_pieces {arguments : List Bytes} {settled : State} (h : Counts state steps)
    (hawaiting : state.awaiting? = none)
    (hscan : scan scope false state arguments = .ok (final, left))
    (hsettle : final.settle scope = .ok settled) :
    ∃ pieces : List Piece, ∃ tail, (∀ piece ∈ pieces, piece.Fits scope) ∧
      arguments = pieces.flatMap Piece.arguments ++ tail ∧
      ((∃ after, scope = .main ∧ tail = configWord :: after ∧ left = some after) ∨
        ((tail = [] ∨ tail = [[dash, dash]]) ∧ left = none)) := by
  induction hlength : arguments.length using Nat.strong_induction_on
      generalizing arguments state steps with
  | _ length ih =>
      cases arguments with
      | nil =>
          rw [scan] at hscan
          cases hscan
          exact ⟨[], [], by simp, rfl, Or.inr ⟨Or.inl rfl, rfl⟩⟩
      | cons bytes rest =>
          rcases scan_cases h hawaiting hscan hsettle with
            ⟨hscope, rfl, hleft⟩ | ⟨rfl, rfl, hleft⟩ | ⟨piece, more, hfits, hsplit⟩
          · exact ⟨[], _, by simp, rfl, Or.inl ⟨rest, hscope, rfl, hleft⟩⟩
          · exact ⟨[], _, by simp, rfl, Or.inr ⟨Or.inr rfl, hleft⟩⟩
          · rw [hsplit] at hscan hlength ⊢
            obtain ⟨next, hmore, hcounts, hnone⟩ := scan_piece hfits h hawaiting hscan
            have hshorter : more.length < length := by
              have hpos := piece.length_arguments_pos
              rw [← hlength, List.length_append]
              omega
            obtain ⟨pieces, tail, hall, hpieces, hend⟩ :=
              ih more.length hshorter hcounts hnone hmore rfl
            refine ⟨piece :: pieces, tail, ?_, ?_, hend⟩
            · exact List.forall_mem_cons.mpr ⟨hfits, hall⟩
            · rw [hpieces, List.flatMap_cons, List.append_assoc]

/-- A row of pieces is read whole, in front of any arguments, and its steps are counted. -/
theorem scan_pieces {pieces : List Piece} (hfits : ∀ piece ∈ pieces, piece.Fits scope)
    (h : Counts state steps) (hawaiting : state.awaiting? = none)
    (hscan : scan scope false state (pieces.flatMap Piece.arguments ++ rest) = .ok (final, left)) :
    ∃ next, scan scope false next rest = .ok (final, left) ∧
      Counts next (steps + (pieces.map Piece.steps).sum) ∧ next.awaiting? = none := by
  induction pieces generalizing state steps with
  | nil => exact ⟨state, hscan, h, hawaiting⟩
  | cons piece pieces ih =>
      obtain ⟨hhere, hlater⟩ := List.forall_mem_cons.mp hfits
      rw [List.flatMap_cons, List.append_assoc] at hscan
      obtain ⟨between, hrest, hcounts, hnone⟩ := scan_piece hhere h hawaiting hscan
      obtain ⟨next, hend, hall, hlast⟩ := ih hlater hcounts hnone hrest
      refine ⟨next, hend, ?_, hlast⟩
      rwa [List.map_cons, List.sum_cons, ← Nat.add_assoc]

end

end Salutation.CommandLine
