/-
One argument of a command line.

An argument is read by its form, and its form by its first bytes: two dashes and a name, or
one dash and letters.  The option behind a name is found by reading the name as text, so what
is proved of a scope's options carries over to bytes because a text is read back from its
encoding.

Each lemma on `scan` says what one argument does to the state in front of any arguments that
follow.  An argument that is read as an option can be no word for a command, because a word
has no dash in front.
-/
import Salutation.CommandLine.Parse
import Salutation.Proofs.Text.Utf8

namespace Salutation.CommandLine

/-! ### Forms -/

/-- A name in front of the first equals sign is split off from the value behind it. -/
theorem splitValue_append {name : Bytes} (h : equalsSign ∉ name) (value : Bytes) :
    splitValue (name ++ equalsSign :: value) = (name, some value) := by
  have hname : (name ++ equalsSign :: value).takeWhile (· ≠ equalsSign) = name := by
    rw [List.takeWhile_append_of_pos]
    · simp
    · intro b hb
      have hne : b ≠ equalsSign := fun hsame => h (hsame ▸ hb)
      simpa using hne
  have hmem : equalsSign ∈ name ++ equalsSign :: value := by simp
  have hdrop : (name ++ equalsSign :: value).drop (name.length + 1) = value := by simp
  unfold splitValue
  simp only [hname, if_pos hmem, hdrop]

/-- The bytes of an option's long name. -/
def Opt.longBytes (opt : Opt) : Bytes := bytesOf opt.long

theorem Opt.equalsSign_not_mem_longBytes (opt : Opt) : equalsSign ∉ opt.longBytes := by
  cases opt <;> decide

/-- An argument that starts with two dashes is a long option. -/
theorem Argument.ofBytes_long {bytes : Bytes} (h : bytes ≠ []) :
    Argument.ofBytes (dash :: dash :: bytes) =
      .long (splitValue bytes).1 (splitValue bytes).2 := by
  cases bytes with
  | nil => exact absurd rfl h
  | cons b more => rfl

/-- An argument that starts with one dash is made of letters. -/
theorem Argument.ofBytes_letters {b : UInt8} (h : b ≠ dash) (more : Bytes) :
    Argument.ofBytes (dash :: b :: more) = .letters (b :: more) := by
  simp [Argument.ofBytes, h]

/-! ### Options -/

theorem Scope.long?_long {scope : Scope} {opt : Opt} (h : opt.isIn scope = true) :
    scope.long? opt.long = some opt := by
  revert h
  cases scope <;> cases opt <;> decide

section

variable {scope : Scope} {opt : Opt} {state : State}

/-- The option of a scope is found by the bytes of its long name. -/
theorem long?_longBytes (h : opt.isIn scope = true) :
    ((Utf8.decode? opt.longBytes).bind fun text => scope.long? (String.ofList text)) =
      some opt := by
  rw [Opt.longBytes, bytesOf, Utf8.decode?_encode, Option.bind_some, String.ofList_toList]
  exact Scope.long?_long h

theorem readLong_attached (h : opt.isIn scope = true) (htakes : opt.takesValue = true)
    (value : Bytes) :
    state.readLong scope opt.longBytes (some value) = state.attach scope opt value := by
  unfold State.readLong
  simp only [long?_longBytes h, htakes, if_true]

theorem readLong_apart (h : opt.isIn scope = true) (htakes : opt.takesValue = true) :
    state.readLong scope opt.longBytes none = state.await scope opt := by
  unfold State.readLong
  simp only [long?_longBytes h, htakes, if_true]

theorem readLong_flag (h : opt.isIn scope = true) (htakes : opt.takesValue = false) :
    state.readLong scope opt.longBytes none = state.setFlag scope opt := by
  unfold State.readLong
  simp only [long?_longBytes h, htakes, Bool.false_eq_true, if_false]

/-! ### Scanning -/

/-- An argument that looks like an option is read by its form, unless it is a message. -/
theorem scan_form {bytes : Bytes} (hawaiting : state.awaiting? ≠ some .message)
    (hform : ∀ word, Argument.ofBytes bytes ≠ .word word) (rest : List Bytes) :
    scan scope false state (bytes :: rest) =
      match Argument.ofBytes bytes with
      | .dashes => scan scope true state rest
      | .long name value =>
        match state.readLong scope name value with
        | .error stop => .error stop
        | .ok next => scan scope false next rest
      | .letters letters =>
        match state.readLetters scope letters.length letters with
        | .error stop => .error stop
        | .ok next => scan scope false next rest
      | .word word => .error (strayWord scope false word) := by
  have hconfig : bytes ≠ configWord := by
    rintro rfl
    exact hform configWord (by decide)
  have hhelp : bytes ≠ helpWord := by
    rintro rfl
    exact hform helpWord (by decide)
  rw [scan]
  simp only [hconfig, hhelp, decide_false, Bool.and_false, Bool.false_eq_true, if_false]
  cases hargument : Argument.ofBytes bytes with
  | word word => exact absurd hargument (hform word)
  | dashes | long name value | letters letters => rfl

theorem scan_long {bytes name : Bytes} {value : Option Bytes} {next : State}
    (hawaiting : state.awaiting? = none)
    (hform : Argument.ofBytes bytes = .long name value)
    (hread : state.readLong scope name value = .ok next) (rest : List Bytes) :
    scan scope false state (bytes :: rest) = scan scope false next rest := by
  rw [scan_form (by simp [hawaiting]) (by simp [hform])]
  simp only [hform, hread]

theorem scan_letters {bytes letters : Bytes} {next : State}
    (hawaiting : state.awaiting? = none)
    (hform : Argument.ofBytes bytes = .letters letters)
    (hread : state.readLetters scope letters.length letters = .ok next) (rest : List Bytes) :
    scan scope false state (bytes :: rest) = scan scope false next rest := by
  rw [scan_form (by simp [hawaiting]) (by simp [hform])]
  simp only [hform, hread]

/-- A message that is awaited may be any argument at all. -/
theorem scan_message (hawaiting : state.awaiting? = some .message) (bytes : Bytes)
    (rest : List Bytes) :
    scan scope false state (bytes :: rest) =
      scan scope false { state with pending := some (.message, some bytes) } rest := by
  rw [scan]
  simp [hawaiting]

/-- Where no value is awaited, the word for the command ends the program's own arguments. -/
theorem scan_configWord (hawaiting : state.awaiting? = none) (rest : List Bytes) :
    scan .main false state (configWord :: rest) = .ok (state, some rest) := by
  rw [scan]
  simp [hawaiting]

end

end Salutation.CommandLine
