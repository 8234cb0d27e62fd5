/-
Reading a command line.

Arguments are read from left to right.  An option that needs a value keeps it pending until
the next option is settled, or the arguments end, so a fault in a pending value comes to
light only then; an argument that fits nowhere is reported before it.  Behind the word for
the command the other scope begins, and its own arguments are settled first.

The message may be any argument at all, one that looks like an option included.  Other
values may not, unless they are attached to their option.
-/
import Salutation.CommandLine.Stop

namespace Salutation.CommandLine

/-- An argument by its form. -/
inductive Argument where
  /-- A double dash: no options after it. -/
  | dashes
  /-- A long option, perhaps with a value attached. -/
  | long (name : Bytes) (value : Option Bytes)
  /-- Letters of options, the last of them perhaps with a value attached. -/
  | letters (bytes : Bytes)
  | word (bytes : Bytes)
  deriving Repr, DecidableEq

/-- The byte of a dash. -/
def dash : UInt8 := 0x2D

/-- The byte of an equals sign. -/
def equalsSign : UInt8 := 0x3D

/-- Splits a long option at its first equals sign. -/
def splitValue (bytes : Bytes) : Bytes × Option Bytes :=
  let name := bytes.takeWhile (· ≠ equalsSign)
  (name, if equalsSign ∈ bytes then some (bytes.drop (name.length + 1)) else none)

/-- The form of an argument. -/
def Argument.ofBytes (bytes : Bytes) : Argument :=
  match bytes with
  | a :: b :: rest =>
    if a = dash && b = dash then
      if rest.isEmpty then .dashes
      else
        let (name, value) := splitValue rest
        .long name value
    else if a = dash then .letters (b :: rest)
    else .word bytes
  | _ => .word bytes

/-- Bytes as a message shows them. -/
def display (bytes : Bytes) : String := String.ofList (Utf8.decodeLossy bytes)

/-- What the arguments of a scope have come to so far. -/
structure State where
  name : Option String := none
  message : Option String := none
  file : Option Path := none
  json : Bool := false
  verbose : Nat := 0
  /-- The options that are settled, in the order of their last use. -/
  used : List Opt := []
  /-- An option that is not settled yet, with its value if that has been read. -/
  pending : Option (Opt × Option Bytes) := none
  deriving Repr, DecidableEq

namespace State

/-- The option whose value must come next. -/
def awaiting? (state : State) : Option Opt :=
  match state.pending with
  | some (opt, none) => some opt
  | _ => none

/-- A mistake with the general usage of a scope. -/
def fail {α : Type} (scope : Scope) (what : Mistake) : Except Stop α :=
  .error (.mistake what (.general scope))

/-- The text of a value that has to be text. -/
def textValue (scope : Scope) (value : Bytes) : Except Stop String :=
  match Utf8.decode? value with
  | some text => .ok (String.ofList text)
  | none => fail scope .invalidText

/-- Settles an option with its value.  A name and a message have to be text, and a file has
to be named. -/
def store (scope : Scope) (opt : Opt) (value : Bytes) (state : State) : Except Stop State :=
  if opt ∈ state.used then fail scope (.repeated opt)
  else
    let state := { state with used := state.used ++ [opt] }
    match opt with
    | .name => (textValue scope value).map fun text => { state with name := some text }
    | .message => (textValue scope value).map fun text => { state with message := some text }
    | .config =>
      if value.isEmpty then fail scope (.valueMissing opt)
      else .ok { state with file := some ⟨value⟩ }
    | _ => .ok state

/-- Settles the pending option, if there is one. -/
def settle (scope : Scope) (state : State) : Except Stop State :=
  match state.pending with
  | none => .ok state
  | some (opt, none) => fail scope (.valueMissing opt)
  | some (opt, some value) => store scope opt value { state with pending := none }

/-- The options that a usage shows: those settled, and the pending one if its value has been
read, unless that is the second time. -/
def shownUse (state : State) : List Opt :=
  match state.pending with
  | some (opt, some _) =>
    if opt ∈ state.used then state.used.erase opt else state.used ++ [opt]
  | _ => state.used

/-- Uses an option that takes no value.  The count of raised steps ends at 255. -/
def setFlag (scope : Scope) (opt : Opt) (state : State) : Except Stop State :=
  match settle scope state with
  | .error stop => .error stop
  | .ok state =>
    match opt with
    | .help => .error (.help scope.topic)
    | .version => .error .version
    | .verbose =>
      .ok { state with
        verbose := min 255 (state.verbose + 1)
        used := state.used.erase .verbose ++ [.verbose] }
    | .json =>
      if .json ∈ state.used then fail scope (.repeated .json)
      else .ok { state with json := true, used := state.used ++ [.json] }
    | _ => .ok state

/-- Uses an option with a value attached. -/
def attach (scope : Scope) (opt : Opt) (value : Bytes) (state : State) : Except Stop State :=
  match settle scope state with
  | .error stop => .error stop
  | .ok state => store scope opt value state

/-- Uses an option whose value comes next. -/
def await (scope : Scope) (opt : Opt) (state : State) : Except Stop State :=
  match settle scope state with
  | .error stop => .error stop
  | .ok state => .ok { state with pending := some (opt, none) }

/-- Reads a long option. -/
def readLong (scope : Scope) (name : Bytes) (value : Option Bytes) (state : State) :
    Except Stop State :=
  let opt? := (Utf8.decode? name).bind fun text => scope.long? (String.ofList text)
  match opt?, value with
  | none, _ =>
    let mistake := Mistake.unknownArgument ("--" ++ display name) false
    .error (.mistake mistake (.listing scope state.shownUse))
  | some opt, some value =>
    if opt.takesValue then attach scope opt value state
    else
      .error (.mistake (.valueUnwanted opt (display value)) (.beside scope opt state.used))
  | some opt, none => if opt.takesValue then await scope opt state else setFlag scope opt state

/-- Reads the letters of one argument, of which there are at most so many. -/
def readLetters (scope : Scope) : Nat → Bytes → State → Except Stop State
  | 0, _, state => .ok state
  | _ + 1, [], state => .ok state
  | fuel + 1, bytes, state =>
    match Utf8.uncons? bytes with
    | none => fail scope (.unknownArgument ("-" ++ display bytes) false)
    | some (c, rest) =>
      match scope.letter? c with
      | none => fail scope (.unknownArgument ("-" ++ String.singleton c) false)
      | some opt =>
        if opt.takesValue then
          match rest with
          | [] => await scope opt state
          | b :: more => attach scope opt (if b = equalsSign then more else rest) state
        else
          match setFlag scope opt state with
          | .error stop => .error stop
          | .ok state => readLetters scope fuel rest state

end State

/-- The word for the command that prints the configuration. -/
def configWord : Bytes := bytesOf "config"

/-- The word for the command that prints help. -/
def helpWord : Bytes := bytesOf "help"

/-- A word that is no value and no command.  Behind a double dash even a command is none. -/
def strayWord (scope : Scope) (behindDashes : Bool) (word : Bytes) : Stop :=
  let shown := display word
  match scope with
  | .config => .mistake (.unknownArgument shown false) (.general scope)
  | .main =>
    if behindDashes && (word = configWord || word = helpWord) then
      .mistake (.unknownArgument shown true) (.general scope)
    else .mistake (.unknownCommand shown) (.general scope)

/-- The help that the words after the help command ask for. -/
def helpOn : Topic → List Bytes → Stop
  | topic, [] => .help topic
  | .main, word :: more =>
    if word = configWord then helpOn .config more
    else if word = helpWord then helpOn .help more
    else .mistake (.unknownCommand (display word)) ⟨.main, []⟩
  | topic, word :: _ => .mistake (.unknownCommand (display word)) ⟨topic, []⟩

/-- Reads the arguments of a scope.  Where the command begins, its arguments are left over. -/
def scan (scope : Scope) : Bool → State → List Bytes → Except Stop (State × Option (List Bytes))
  | _, state, [] => .ok (state, none)
  | true, _, word :: _ => .error (strayWord scope true word)
  | false, state, bytes :: rest =>
    let take (opt : Opt) : State := { state with pending := some (opt, some bytes) }
    match state.awaiting? with
    | some .message => scan scope false (take .message) rest
    | awaiting? =>
      if awaiting? = none && scope = .main && bytes = configWord then .ok (state, some rest)
      else if awaiting? = none && scope = .main && bytes = helpWord then .error (helpOn .main rest)
      else
        match Argument.ofBytes bytes with
        | .dashes => scan scope true state rest
        | .long name value =>
          match state.readLong scope name value with
          | .error stop => .error stop
          | .ok state => scan scope false state rest
        | .letters letters =>
          match state.readLetters scope letters.length letters with
          | .error stop => .error stop
          | .ok state => scan scope false state rest
        | .word word =>
          match awaiting? with
          | some opt => scan scope false (take opt) rest
          | none => .error (strayWord scope false word)

/-- What the arguments of both scopes ask for together: the command's own value wins. -/
def merge (outer inner : State) : Request where
  name := outer.name
  message := outer.message
  json := outer.json || inner.json
  verbose := if .verbose ∈ inner.used then inner.verbose else outer.verbose
  file := inner.file.or outer.file
  printsConfig := true

/-- What the arguments of the program alone ask for. -/
def State.request (state : State) : Request where
  name := state.name
  message := state.message
  json := state.json
  verbose := state.verbose
  file := state.file

/-- Reads a command line, without the program's name. -/
def parse (arguments : List Bytes) : Except Stop Request :=
  match scan .main false {} arguments with
  | .error stop => .error stop
  | .ok (outer, none) => (outer.settle .main).map State.request
  | .ok (outer, some rest) =>
    match scan .config false {} rest with
    | .error stop => .error stop
    | .ok (inner, _) =>
      match inner.settle .config with
      | .error stop => .error stop
      | .ok inner => (outer.settle .main).map fun outer => merge outer inner

end Salutation.CommandLine
