/-
Command lines that spell a request.

A command line is a row of uses of options, perhaps with the word for the command somewhere
in it.  What a row of uses comes to is said here from the uses alone: the value that an option
is given, the letters that are counted, the options that are used.  `Holds` says that a state
agrees with that.

A value is settled only when the next option comes or the arguments end, so between two uses
the state may still have to be settled.  `Leads` is the invariant that allows for it: nothing
is awaited, and what the state settles to holds the uses so far.  One more use takes it from
the uses before to the uses with it, and this is what makes the order of the uses and the two
ways to spell a message immaterial.

The command has a scope of its own, which starts from nothing.  What both scopes hold is put
together at the end, and there an option that only one of them uses is that scope's.
-/
import Mathlib.Algebra.Ring.Nat
import Salutation.Proofs.CommandLine.Argument

namespace Salutation.CommandLine

/-! ### Spellings -/

/-- One use of an option, as it is spelled. -/
inductive Use where
  | name (value : String)
  | message (value : String)
  /-- A message in an argument of its own. -/
  | messageApart (value : String)
  | file (path : Path) (named : path.bytes ≠ [])
  | json
  /-- Letters in one argument: so many, and one more. -/
  | verbose (more : Nat)

namespace Use

/-- The option that is used. -/
def opt : Use → Opt
  | .name _ => .name
  | .message _ => .message
  | .messageApart _ => .message
  | .file _ _ => .config
  | .json => .json
  | .verbose _ => .verbose

/-- The arguments that a use takes. -/
def arguments : Use → List Bytes
  | .name value => [bytesOf ("--name=" ++ value)]
  | .message value => [bytesOf ("--message=" ++ value)]
  | .messageApart value => [bytesOf "-m", bytesOf value]
  | .file path _ => [bytesOf "--config=" ++ path.bytes]
  | .json => [bytesOf "--json"]
  | .verbose more => [bytesOf ("-" ++ String.ofList (List.replicate (more + 1) 'v'))]

/-- The name that a use gives. -/
def name? : Use → Option String
  | .name value => some value
  | _ => none

/-- The message that a use gives. -/
def message? : Use → Option String
  | .message value => some value
  | .messageApart value => some value
  | _ => none

/-- The file that a use gives. -/
def file? : Use → Option Path
  | .file path _ => some path
  | _ => none

/-- The letters of a use that count for the verbosity. -/
def letters : Use → Nat
  | .verbose more => more + 1
  | _ => 0

end Use

/-- The number of times that uses ask for JSON. -/
def jsonCount (uses : List Use) : Nat := uses.countP (·.opt = .json)

/-- The number of steps that uses ask for. -/
def verboseCount (uses : List Use) : Nat := (uses.map Use.letters).sum

/-- All of something stands on one of two sides, and nothing on the other. -/
def OnOneSide {α : Type} (nothing whole before after : α) : Prop :=
  (before = whole ∧ after = nothing) ∨ (before = nothing ∧ after = whole)

/-- Uses that spell a request, those in front of the word for the command and those behind
it.  The order of the uses on each side does not matter. -/
structure Spells (request : Request) (before after : List Use) : Prop where
  name : before.filterMap Use.name? = request.name.toList
  message : before.filterMap Use.message? = request.message.toList
  file : OnOneSide [] request.file.toList (before.filterMap Use.file?) (after.filterMap Use.file?)
  json : OnOneSide 0 request.json.toNat (jsonCount before) (jsonCount after)
  verbose : OnOneSide 0 request.verbose (verboseCount before) (verboseCount after)
  /-- Behind the word for the command there are only options that belong to it. -/
  inCommand : ∀ use ∈ after, use.opt.isIn .config = true
  /-- Without the word for the command nothing stands behind it. -/
  command : request.printsConfig = false → after = []

/-- A row of uses, with the word for the command and more uses behind it if there is to be
one. -/
def commandLine (printsConfig : Bool) (before after : List Use) : List Bytes :=
  before.flatMap Use.arguments ++
    if printsConfig then configWord :: after.flatMap Use.arguments else []

/-! ### What a state holds

A state has room for one value of each option, and a row of uses may give several.  `Holds` takes
the last of them, so that one more use changes the state and the row alike.  That a second value is
refused is a matter of its own.
-/

/-- A settled state that agrees with the uses it comes from. -/
structure Holds (state : State) (uses : List Use) : Prop where
  pending : state.pending = none
  name : state.name = (uses.filterMap Use.name?).getLast?
  message : state.message = (uses.filterMap Use.message?).getLast?
  file : state.file = (uses.filterMap Use.file?).getLast?
  json : state.json = decide (.json ∈ uses.map Use.opt)
  verbose : state.verbose = min 255 (verboseCount uses)
  used : ∀ opt, opt ∈ state.used ↔ opt ∈ uses.map Use.opt

/-- A state that awaits nothing and settles to what the uses come to. -/
structure Leads (scope : Scope) (state : State) (uses : List Use) : Prop where
  awaiting : state.awaiting? = none
  settles : ∃ settled, state.settle scope = .ok settled ∧ Holds settled uses

theorem verboseCount_append (uses more : List Use) :
    verboseCount (uses ++ more) = verboseCount uses + verboseCount more := by
  simp [verboseCount]

@[simp] theorem verboseCount_singleton (use : Use) : verboseCount [use] = use.letters := by
  simp [verboseCount]

/-- A state with one more use put into it. -/
def State.adding (state : State) (use : Use) : State :=
  { state with
    name := use.name?.or state.name
    message := use.message?.or state.message
    file := use.file?.or state.file
    json := state.json || use.opt = .json
    verbose := min 255 (state.verbose + use.letters)
    used := state.used.erase use.opt ++ [use.opt] }

/-- The last value that uses give is that of the last use, if it gives one. -/
theorem getLast?_filterMap_concat {α : Type} (value? : Use → Option α) (uses : List Use)
    (use : Use) :
    ((uses ++ [use]).filterMap value?).getLast? =
      (value? use).or (uses.filterMap value?).getLast? := by
  rw [List.filterMap_append]
  cases hvalue : value? use <;> simp [hvalue]

theorem mem_erase_concat {used : List Opt} {opt added : Opt} :
    opt ∈ used.erase added ++ [added] ↔ opt ∈ used ∨ opt = added := by
  by_cases hsame : opt = added
  · simp [hsame]
  · simp [hsame, List.mem_erase_of_ne hsame]

theorem holds_nil : Holds {} [] where
  pending := rfl
  name := rfl
  message := rfl
  file := rfl
  json := rfl
  verbose := rfl
  used := by simp

section

variable {scope : Scope} {state settled : State} {uses : List Use}

/-- One more use is held where it is put in. -/
theorem Holds.adding (h : Holds state uses) (use : Use) :
    Holds (state.adding use) (uses ++ [use]) where
  pending := h.pending
  name := by
    rw [getLast?_filterMap_concat, ← h.name]
    rfl
  message := by
    rw [getLast?_filterMap_concat, ← h.message]
    rfl
  file := by
    rw [getLast?_filterMap_concat, ← h.file]
    rfl
  json := by
    show (state.json || decide (use.opt = .json)) = _
    rw [h.json]
    simp [eq_comm]
  verbose := by
    show min 255 (state.verbose + use.letters) = _
    rw [h.verbose, verboseCount_append, verboseCount_singleton]
    omega
  used := by
    intro opt
    show opt ∈ state.used.erase use.opt ++ [use.opt] ↔ _
    rw [mem_erase_concat, h.used]
    simp

theorem Holds.capped (h : Holds state uses) : min 255 state.verbose = state.verbose := by
  rw [h.verbose]
  omega

theorem settle_of_pending (h : state.pending = none) : state.settle scope = .ok state := by
  simp [State.settle, h]

/-- A state with nothing pending is settled already. -/
theorem Holds.leads (h : Holds state uses) : Leads scope state uses where
  awaiting := by simp [State.awaiting?, h.pending]
  settles := ⟨state, settle_of_pending h.pending, h⟩

/-! ### One use -/

/-- The value that a use gives to its option. -/
def Use.value? : Use → Option Bytes
  | .name value => some (bytesOf value)
  | .message value => some (bytesOf value)
  | .messageApart value => some (bytesOf value)
  | .file path _ => some path.bytes
  | .json => none
  | .verbose _ => none

theorem textValue_bytesOf (scope : Scope) (value : String) :
    State.textValue scope (bytesOf value) = .ok value := by
  simp [State.textValue, bytesOf, Utf8.decode?_encode]

/-- Storing the value of an option that is not used yet puts the use in. -/
theorem store_use (h : Holds settled uses) (use : Use) (hfresh : use.opt ∉ uses.map Use.opt)
    {value : Bytes} (hvalue : use.value? = some value) :
    settled.store scope use.opt value = .ok (settled.adding use) := by
  have hunused : use.opt ∉ settled.used := fun hmem => hfresh ((h.used _).mp hmem)
  unfold State.store State.adding
  rw [if_neg hunused, List.erase_of_not_mem hunused]
  cases use with
  | name text | message text | messageApart text =>
      cases hvalue
      simp [Use.opt, Use.name?, Use.message?, Use.file?, Use.letters, textValue_bytesOf, h.capped,
        Except.map]
  | file path named =>
      cases hvalue
      simp [Use.opt, Use.name?, Use.message?, Use.file?, Use.letters, named, h.capped]
  | json | verbose more => cases hvalue

/-- Asking for JSON for the first time puts the use in. -/
theorem setFlag_json (hsettle : state.settle scope = .ok settled) (h : Holds settled uses)
    (hfresh : Opt.json ∉ uses.map Use.opt) :
    state.setFlag scope .json = .ok (settled.adding .json) := by
  have hunused : Opt.json ∉ settled.used := fun hmem => hfresh ((h.used _).mp hmem)
  unfold State.setFlag State.adding
  rw [hsettle]
  simp [hunused, Use.opt, Use.name?, Use.message?, Use.file?, Use.letters, h.capped,
    List.erase_of_not_mem hunused]

/-- Each letter of its own puts in a use of one letter. -/
theorem setFlag_verbose (hsettle : state.settle scope = .ok settled) :
    state.setFlag scope .verbose = .ok (settled.adding (.verbose 0)) := by
  unfold State.setFlag State.adding
  rw [hsettle]
  simp [Use.opt, Use.name?, Use.message?, Use.file?, Use.letters]

/-- Two uses of letters in a row are as good as one. -/
theorem Holds.join_letters {n m : Nat} (h : Holds state (uses ++ [.verbose n] ++ [.verbose m])) :
    Holds state (uses ++ [.verbose (n + m + 1)]) where
  pending := h.pending
  name := by simpa [Use.name?, List.findSome?] using h.name
  message := by simpa [Use.message?, List.findSome?] using h.message
  file := by simpa [Use.file?, List.findSome?] using h.file
  json := by simpa [Use.opt] using h.json
  verbose := by
    have hcount := h.verbose
    simp only [verboseCount_append, verboseCount_singleton, Use.letters] at hcount ⊢
    omega
  used := by
    intro opt
    rw [h.used]
    simp [Use.opt]

/-- The byte of the letter that raises the verbosity. -/
def verboseByte : UInt8 := 0x76

theorem uncons?_verboseByte (rest : Bytes) :
    Utf8.uncons? (verboseByte :: rest) = some ('v', rest) := by
  rfl

theorem letter?_verbose (scope : Scope) : scope.letter? 'v' = some .verbose := by
  cases scope <;> decide

/-- Reading one letter is setting the flag. -/
theorem readLetters_cons (fuel : Nat) (rest : Bytes) {next : State}
    (hset : state.setFlag scope .verbose = .ok next) :
    state.readLetters scope (fuel + 1) (verboseByte :: rest) =
      next.readLetters scope fuel rest := by
  rw [State.readLetters]
  · simp only [uncons?_verboseByte, letter?_verbose, hset]
    rfl
  · simp

/-- Letters behind a letter are put in one by one. -/
theorem readLetters_replicate (scope : Scope) {n : Nat}
    (h : Holds settled (uses ++ [.verbose n])) (m : Nat) :
    ∃ next, settled.readLetters scope m (List.replicate m verboseByte) = .ok next ∧
      Holds next (uses ++ [.verbose (n + m)]) := by
  induction m generalizing settled n with
  | zero => exact ⟨settled, rfl, h⟩
  | succ m ih =>
      have hset : settled.setFlag scope .verbose = .ok (settled.adding (.verbose 0)) :=
        setFlag_verbose (settle_of_pending h.pending)
      obtain ⟨next, hread, hholds⟩ := ih (h.adding (.verbose 0)).join_letters
      refine ⟨next, ?_, ?_⟩
      · rw [List.replicate_succ, readLetters_cons m _ hset, hread]
      · rwa [show n + (m + 1) = n + 0 + 1 + m by omega]

/-! ### The arguments of a use -/

theorem bytesOf_append (a b : String) : bytesOf (a ++ b) = bytesOf a ++ bytesOf b := by
  simp [bytesOf, Utf8.encode_append]

/-- Two uses of one option, unless it is the one that counts. -/
def Clash (a b : Use) : Prop := a.opt = b.opt ∧ a.opt ≠ .verbose

/-- Where a use leads: whatever arguments follow, they are read in a state that leads to the
uses with that one. -/
def Extends (scope : Scope) (state : State) (uses : List Use) (use : Use) : Prop :=
  ∃ next, (∀ rest, scan scope false state (use.arguments ++ rest) = scan scope false next rest) ∧
    Leads scope next (uses ++ [use])

/-- A value that is attached to a long option is read in one argument. -/
theorem extends_attached (h : Leads scope state uses) {use : Use} {opt : Opt}
    (hopt : use.opt = opt) (hscope : opt.isIn scope = true) (hfresh : opt ∉ uses.map Use.opt)
    {front value : Bytes} (hvalue : use.value? = some value)
    (harguments : use.arguments = [front ++ value])
    (hfront : front = dash :: dash :: (opt.longBytes ++ [equalsSign]))
    (htakes : opt.takesValue = true) : Extends scope state uses use := by
  obtain ⟨hawaiting, settled, hsettle, hholds⟩ := h
  subst hopt
  have hform : Argument.ofBytes (front ++ value) = .long use.opt.longBytes (some value) := by
    rw [hfront, List.cons_append, List.cons_append, List.append_assoc, List.singleton_append,
      Argument.ofBytes_long (by simp), splitValue_append use.opt.equalsSign_not_mem_longBytes]
  have hread : state.readLong scope use.opt.longBytes (some value) =
      .ok (settled.adding use) := by
    rw [readLong_attached hscope htakes]
    simp only [State.attach, hsettle]
    exact store_use hholds use hfresh hvalue
  refine ⟨settled.adding use, fun rest => ?_, (hholds.adding use).leads⟩
  rw [harguments]
  exact scan_long hawaiting hform hread rest

/-- A message in an argument of its own is pending until it is settled. -/
theorem Holds.leads_message (h : Holds settled uses) (value : String)
    (hfresh : Opt.message ∉ uses.map Use.opt) :
    Leads scope { settled with pending := some (.message, some (bytesOf value)) }
      (uses ++ [.messageApart value]) := by
  refine ⟨rfl, settled.adding (.messageApart value), ?_, h.adding _⟩
  show State.store scope .message (bytesOf value) { settled with pending := none } = _
  rw [← h.pending]
  exact store_use h (.messageApart value) hfresh rfl

/-- The letter of the message awaits the argument behind it. -/
theorem extends_apart (h : Leads scope state uses) (value : String)
    (hscope : Opt.message.isIn scope = true) (hfresh : Opt.message ∉ uses.map Use.opt) :
    Extends scope state uses (.messageApart value) := by
  obtain ⟨hawaiting, settled, hsettle, hholds⟩ := h
  have hletter : scope.letter? 'm' = some .message := by
    revert hscope
    cases scope <;> decide
  have hread : state.readLetters scope 1 (bytesOf "m") =
      .ok { settled with pending := some (.message, none) } := by
    have hcons : Utf8.uncons? (bytesOf "m") = some ('m', []) := by decide
    rw [State.readLetters]
    · simp [hcons, hletter, State.await, hsettle, Opt.takesValue, Opt.valueName?]
    · decide
  have hform : Argument.ofBytes (bytesOf "-m") = .letters (bytesOf "m") := by decide
  refine ⟨_, fun rest => ?_, hholds.leads_message value hfresh⟩
  rw [Use.arguments, List.cons_append, List.singleton_append,
    scan_letters hawaiting hform hread, scan_message rfl]

/-- The flag for JSON is one argument. -/
theorem extends_json (h : Leads scope state uses) (hfresh : Opt.json ∉ uses.map Use.opt) :
    Extends scope state uses .json := by
  obtain ⟨hawaiting, settled, hsettle, hholds⟩ := h
  have hscope : Opt.json.isIn scope = true := by
    cases scope <;> rfl
  have hform : Argument.ofBytes (bytesOf "--json") = .long Opt.json.longBytes none := by decide
  refine ⟨settled.adding .json, fun rest => ?_, (hholds.adding .json).leads⟩
  refine scan_long hawaiting hform ?_ rest
  rw [readLong_flag hscope rfl, setFlag_json hsettle hholds hfresh]

theorem bytesOf_letters (n : Nat) :
    bytesOf ("-" ++ String.ofList (List.replicate n 'v')) = dash :: List.replicate n verboseByte := by
  have hletters : Utf8.encode (List.replicate n 'v') = List.replicate n verboseByte := by
    induction n with
    | zero => rfl
    | succ n ih =>
        rw [List.replicate_succ, Utf8.encode_cons, ih]
        rfl
  have hdash : bytesOf "-" = [dash] := by decide
  rw [bytesOf_append, hdash, List.singleton_append, bytesOf, String.toList_ofList, hletters]

/-- The letters of one argument count together. -/
theorem extends_letters (h : Leads scope state uses) (more : Nat) :
    Extends scope state uses (.verbose more) := by
  obtain ⟨hawaiting, settled, hsettle, hsettled⟩ := h
  obtain ⟨next, hread, hholds⟩ := readLetters_replicate scope (hsettled.adding (.verbose 0)) more
  refine ⟨next, fun rest => ?_, ?_⟩
  · rw [Use.arguments, bytesOf_letters, List.replicate_succ, List.singleton_append]
    refine scan_letters hawaiting (Argument.ofBytes_letters (by decide) _) ?_ rest
    rw [List.length_cons, List.length_replicate,
      readLetters_cons more _ (setFlag_verbose hsettle), hread]
  · rw [Nat.zero_add] at hholds
    exact hholds.leads

/-- **One more use takes a state that leads to the uses so far to one that leads to all of
them.** -/
theorem scan_use (h : Leads scope state uses) {use : Use} (hscope : use.opt.isIn scope = true)
    (hfresh : ∀ earlier ∈ uses, ¬Clash earlier use) : Extends scope state uses use := by
  have hnew : use.opt ≠ .verbose → use.opt ∉ uses.map Use.opt := by
    intro hother hmem
    obtain ⟨earlier, hearlier, hsame⟩ := List.mem_map.mp hmem
    exact hfresh earlier hearlier ⟨hsame, by rwa [hsame]⟩
  cases use with
  | name value =>
      have hfront : bytesOf "--name=" = dash :: dash :: (Opt.name.longBytes ++ [equalsSign]) := by
        decide
      exact extends_attached h rfl hscope (hnew (by simp [Use.opt])) rfl
        (by rw [Use.arguments, bytesOf_append]) hfront rfl
  | message value =>
      have hfront : bytesOf "--message=" =
          dash :: dash :: (Opt.message.longBytes ++ [equalsSign]) := by
        decide
      exact extends_attached h rfl hscope (hnew (by simp [Use.opt])) rfl
        (by rw [Use.arguments, bytesOf_append]) hfront rfl
  | file path named =>
      have hfront : bytesOf "--config=" =
          dash :: dash :: (Opt.config.longBytes ++ [equalsSign]) := by
        decide
      exact extends_attached h rfl hscope (hnew (by simp [Use.opt])) rfl
        rfl hfront rfl
  | messageApart value =>
      exact extends_apart h value hscope (hnew (by simp [Use.opt]))
  | json => exact extends_json h (hnew (by simp [Use.opt]))
  | verbose more => exact extends_letters h more

/-! ### A row of uses -/

/-- A row of uses of which no two clash is read whole. -/
theorem scan_uses {more : List Use} (h : Leads scope state uses)
    (hscope : ∀ use ∈ more, use.opt.isIn scope = true)
    (hclash : (uses ++ more).Pairwise fun a b => ¬Clash a b) :
    ∃ next, (∀ rest, scan scope false state (more.flatMap Use.arguments ++ rest) =
        scan scope false next rest) ∧
      Leads scope next (uses ++ more) := by
  induction more generalizing state uses with
  | nil => exact ⟨state, fun rest => rfl, by rwa [List.append_nil]⟩
  | cons use more ih =>
      obtain ⟨hhere, hlater⟩ := List.forall_mem_cons.mp hscope
      have hfresh : ∀ earlier ∈ uses, ¬Clash earlier use := by
        intro earlier hearlier
        exact (List.pairwise_append.mp hclash).2.2 earlier hearlier use List.mem_cons_self
      obtain ⟨next, hscan, hnext⟩ := scan_use h hhere hfresh
      rw [← List.singleton_append, ← List.append_assoc] at hclash
      obtain ⟨last, hrest, hlast⟩ := ih hnext hlater hclash
      refine ⟨last, fun rest => ?_, ?_⟩
      · rw [List.flatMap_cons, List.append_assoc, hscan, hrest]
      · rwa [List.append_assoc, List.singleton_append] at hlast

end

/-! ### Uses that do not clash

What is asked of a spelling is one bound for each kind: at most one name, one message, one file and
one flag for JSON.  The reader refuses the second use of an option when it comes to it, so what it
needs is said of any two uses.
-/

namespace Use

theorem isSome_name? (use : Use) : use.name?.isSome = decide (use.opt = .name) := by
  cases use <;> rfl

theorem isSome_message? (use : Use) : use.message?.isSome = decide (use.opt = .message) := by
  cases use <;> rfl

theorem isSome_file? (use : Use) : use.file?.isSome = decide (use.opt = .config) := by
  cases use <;> rfl

/-- An option that belongs to the command gives neither a name nor a message. -/
theorem values_of_inCommand {use : Use} (h : use.opt.isIn .config = true) :
    use.name? = none ∧ use.message? = none := by
  cases use with
  | name value | message value | messageApart value => cases h
  | file path named | json | verbose more => exact ⟨rfl, rfl⟩

theorem letters_pos (use : Use) : 0 < use.letters ↔ use.opt = .verbose := by
  cases use <;> simp [letters, opt]

end Use

/-- Two uses of an option that gives values give two values. -/
theorem two_le_of_sublist {α : Type} {value? : Use → Option α} {opt : Opt}
    (hgives : ∀ use, (value? use).isSome = decide (use.opt = opt)) {uses : List Use} {a b : Use}
    (h : [a, b].Sublist uses) (ha : a.opt = opt) (hb : b.opt = opt) :
    2 ≤ (uses.filterMap value?).length := by
  obtain ⟨x, hx⟩ := Option.isSome_iff_exists.mp ((hgives a).trans (decide_eq_true ha))
  obtain ⟨y, hy⟩ := Option.isSome_iff_exists.mp ((hgives b).trans (decide_eq_true hb))
  have hlength := (h.filterMap value?).length_le
  simpa [hx, hy] using hlength

/-- Uses of which at most one gives a name, at most one a message, and so on, do not clash. -/
theorem pairwise_not_clash {uses : List Use} (hname : (uses.filterMap Use.name?).length ≤ 1)
    (hmessage : (uses.filterMap Use.message?).length ≤ 1)
    (hfile : (uses.filterMap Use.file?).length ≤ 1) (hjson : jsonCount uses ≤ 1) :
    uses.Pairwise fun a b => ¬Clash a b := by
  rw [List.pairwise_iff_forall_sublist]
  rintro a b hsublist ⟨hsame, hcounts⟩
  cases a with
  | name value =>
      have htwo := two_le_of_sublist Use.isSome_name? hsublist rfl hsame.symm
      omega
  | message value | messageApart value =>
      have htwo := two_le_of_sublist Use.isSome_message? hsublist rfl hsame.symm
      omega
  | file path named =>
      have htwo := two_le_of_sublist Use.isSome_file? hsublist rfl hsame.symm
      omega
  | json =>
      have hfirst : Use.json.opt = .json := rfl
      have hboth : jsonCount [.json, b] = 2 := by
        simp [jsonCount, hfirst, ← hsame]
      have hcount : jsonCount [.json, b] ≤ jsonCount uses := hsublist.countP_le
      omega
  | verbose more => exact hcounts rfl

/-! ### What a spelling comes to -/

theorem OnOneSide.cases {α : Type} {nothing whole before after : α}
    (h : OnOneSide nothing whole before after) :
    (before = nothing ∨ before = whole) ∧ (after = nothing ∨ after = whole) := by
  rcases h with ⟨hbefore, hafter⟩ | ⟨hbefore, hafter⟩
  · exact ⟨Or.inr hbefore, Or.inl hafter⟩
  · exact ⟨Or.inl hbefore, Or.inr hafter⟩

theorem length_le_of_eq_toList {α : Type} {values : List α} {value : Option α}
    (h : values = [] ∨ values = value.toList) : values.length ≤ 1 := by
  rcases h with hnone | hall
  · simp [hnone]
  · rw [hall]
    cases value <;> simp

section

variable {request : Request} {before after : List Use}

/-- Behind the word for the command no name and no message is given. -/
theorem Spells.command_values (h : Spells request before after) :
    after.filterMap Use.name? = [] ∧ after.filterMap Use.message? = [] := by
  rw [List.filterMap_eq_nil_iff, List.filterMap_eq_nil_iff]
  constructor
  · intro use huse
    exact (Use.values_of_inCommand (h.inCommand use huse)).1
  · intro use huse
    exact (Use.values_of_inCommand (h.inCommand use huse)).2

/-- No two uses of a spelling clash, on either side. -/
theorem Spells.not_clash (h : Spells request before after) :
    (before.Pairwise fun a b => ¬Clash a b) ∧ after.Pairwise fun a b => ¬Clash a b := by
  obtain ⟨hfile, hfile'⟩ := h.file.cases
  obtain ⟨hjson, hjson'⟩ := h.json.cases
  obtain ⟨hname', hmessage'⟩ := h.command_values
  have hone : request.json.toNat ≤ 1 := Bool.toNat_le request.json
  constructor
  · exact pairwise_not_clash (length_le_of_eq_toList (Or.inr h.name))
      (length_le_of_eq_toList (Or.inr h.message)) (length_le_of_eq_toList hfile) (by omega)
  · exact pairwise_not_clash (by simp [hname']) (by simp [hmessage'])
      (length_le_of_eq_toList hfile') (by omega)

/-! ### What both scopes come to -/

theorem getLast?_toList {α : Type} (value : Option α) : value.toList.getLast? = value := by
  cases value <;> rfl

/-- JSON is on if it is asked for at all. -/
theorem Holds.json_eq {state : State} {uses : List Use} (h : Holds state uses) :
    state.json = decide (0 < jsonCount uses) := by
  rw [h.json, decide_eq_decide, jsonCount, List.countP_pos_iff, List.mem_map]
  simp

/-- The option that counts is used if there are letters. -/
theorem Holds.verbose_mem_used {state : State} {uses : List Use} (h : Holds state uses) :
    .verbose ∈ state.used ↔ 0 < verboseCount uses := by
  rw [h.used, verboseCount, List.sum_pos_iff_exists_pos_nat, List.mem_map]
  constructor
  · rintro ⟨use, huse, hopt⟩
    exact ⟨use.letters, List.mem_map_of_mem huse, use.letters_pos.mpr hopt⟩
  · rintro ⟨count, hcount, hpos⟩
    obtain ⟨use, huse, rfl⟩ := List.mem_map.mp hcount
    exact ⟨use, huse, use.letters_pos.mp hpos⟩

/-- The program's own arguments give the name and the message. -/
theorem Spells.outer_values (h : Spells request before after) {outer : State}
    (houter : Holds outer before) : outer.name = request.name ∧ outer.message = request.message := by
  rw [houter.name, houter.message, h.name, h.message]
  exact ⟨getLast?_toList _, getLast?_toList _⟩

/-- Of each option that both scopes have, the side that uses it decides. -/
theorem Spells.merge_eq (h : Spells request before after) (hcount : request.verbose ≤ 255)
    {outer inner : State} (houter : Holds outer before) (hinner : Holds inner after) :
    merge outer inner = { request with printsConfig := true } := by
  obtain ⟨hname, hmessage⟩ := h.outer_values houter
  have hjson : (outer.json || inner.json) = request.json := by
    rw [houter.json_eq, hinner.json_eq]
    rcases h.json with ⟨hall, hnone⟩ | ⟨hnone, hall⟩
    · rw [hall, hnone]
      cases request.json <;> rfl
    · rw [hall, hnone]
      cases request.json <;> rfl
  have hverbose : (if .verbose ∈ inner.used then inner.verbose else outer.verbose) =
      request.verbose := by
    rw [hinner.verbose, houter.verbose]
    have hused := hinner.verbose_mem_used
    rcases h.verbose with ⟨hall, hnone⟩ | ⟨hnone, hall⟩
    · rw [if_neg (by rw [hused]; omega), hall]
      omega
    · by_cases hmem : .verbose ∈ inner.used
      · rw [if_pos hmem, hall]
        omega
      · rw [hused] at hmem
        rw [if_neg (by rwa [hused])]
        omega
  have hfile : inner.file.or outer.file = request.file := by
    rw [houter.file, hinner.file]
    rcases h.file with ⟨hall, hnone⟩ | ⟨hnone, hall⟩
    · simp [hall, hnone, getLast?_toList]
    · simp [hall, hnone, getLast?_toList]
  simp only [merge, hname, hmessage, hjson, hverbose, hfile]

/-- Without the command it is as if its arguments had come to nothing. -/
theorem request_eq_merge (outer : State) :
    outer.request = { merge outer {} with printsConfig := false } := by
  simp [State.request, merge]

end

/-- **A command line that spells a request is accepted and read as that request**, however its
options are ordered, whichever side of the command they stand on, and whatever the values are. -/
theorem parse_commandLine {request : Request} {before after : List Use}
    (hcount : request.verbose ≤ 255) (h : Spells request before after) :
    parse (commandLine request.printsConfig before after) = .ok request := by
  obtain ⟨hbefore, hafter⟩ := h.not_clash
  have hmain : ∀ use ∈ before, use.opt.isIn .main = true := fun _ _ => rfl
  obtain ⟨outer, hscan, hawaiting, settled, hsettle, hholds⟩ :=
    scan_uses (holds_nil.leads) hmain (by simpa using hbefore)
  rw [List.nil_append] at hholds
  unfold parse commandLine
  rw [hscan]
  cases hcommand : request.printsConfig with
  | false =>
      have hend : scan .main false outer [] = .ok (outer, none) := by rw [scan]
      have hrequest : settled.request = request := by
        rw [h.command hcommand] at h
        rw [request_eq_merge, h.merge_eq hcount hholds holds_nil, ← hcommand]
      simp only [Bool.false_eq_true, if_false, hend, hsettle, Except.map, hrequest]
  | true =>
      obtain ⟨inner, hscan', -, settled', hsettle', hholds'⟩ :=
        scan_uses (holds_nil.leads) h.inCommand (by simpa using hafter)
      have hend : scan .config false {} (after.flatMap Use.arguments) = .ok (inner, none) := by
        have hnil := hscan' []
        rwa [List.append_nil, scan] at hnil
      have hrequest : merge settled settled' = request := by
        rw [List.nil_append] at hholds'
        rw [h.merge_eq hcount hholds hholds', ← hcommand]
      simp only [if_true, scan_configWord hawaiting, hend, hsettle', hsettle, Except.map, hrequest]

/-- Values that look like an option, like the command and like nothing at all, with the letters
on one side of the command in two arguments and the file on the other. -/
theorem parse_commandLine_of_odd_values :
    let printing : Request :=
      ⟨some "", some "config", true, 3, some (.ofString "a=b"), true⟩
    let greeting : Request := { name := some "-x", message := some "--", verbose := 3 }
    parse (["--config=a=b", "-m", "config", "--name=", "config", "-v", "--json", "-vv"].map
        bytesOf) = .ok printing ∧
      parse (["-vvv", "--name=-x", "--message=--"].map bytesOf) = .ok greeting := by
  intro printing greeting
  have hprinting : Spells printing
      [.file (.ofString "a=b") (by decide), .messageApart "config", .name ""]
      [.verbose 0, .json, .verbose 1] := by
    refine ⟨rfl, rfl, Or.inl ⟨rfl, rfl⟩, Or.inr ⟨rfl, rfl⟩, Or.inr ⟨rfl, rfl⟩, ?_, nofun⟩
    simp [Use.opt, Opt.isIn]
  have hgreeting : Spells greeting [.verbose 2, .name "-x", .message "--"] [] :=
    ⟨rfl, rfl, Or.inl ⟨rfl, rfl⟩, Or.inl ⟨rfl, rfl⟩, Or.inl ⟨rfl, rfl⟩, nofun, fun _ => rfl⟩
  exact ⟨parse_commandLine (by decide) hprinting, parse_commandLine (by decide) hgreeting⟩

end Salutation.CommandLine
