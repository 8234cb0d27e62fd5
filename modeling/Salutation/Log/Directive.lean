/-
Directives: which events are shown, up to which level.

    topic[span{field}]=level

A level alone is for everything, and a topic alone for every level.  The brackets narrow a
directive down: to what happens in a span, to events that have a field, or to events in a
span whose field has a value.  A value that can never be compared spoils its directive.

Blanks around a directive do not count for its form.  But its parts are cut from the text
as it is given, at the places, in bytes, where they stand without the blanks: a blank in
front takes the last byte of a topic away and puts the equals sign in front of its level.
-/
import Salutation.Log.Event
import Salutation.Log.FieldPattern
import Salutation.Text.Alphanumeric
import Salutation.Text.Blank

namespace Salutation.Log

/-- The levels that are let through: those up to a level, or none. -/
abbrev Threshold := Option Level

/-- Whether a threshold lets a level through. -/
def admits (threshold : Threshold) (level : Level) : Bool :=
  match threshold with
  | some limit => level.rank ≤ limit.rank
  | none => false

/-- The thresholds, the one of rank `n` in place `n`. -/
def thresholds : List (String × Threshold) := [
  ("off", none), ("error", some .error), ("warn", some .warn), ("info", some .info),
  ("debug", some .debug), ("trace", some .trace)]

/-- The number that a text spells in digits, perhaps after a plus sign. -/
def digitsValue? (text : List Char) : Option Nat :=
  let digits :=
    match text with
    | '+' :: rest => rest
    | _ => text
  if digits ≠ [] && digits.all Char.isDigit then
    some (digits.foldl (fun n c => n * 10 + (c.toNat - 0x30)) 0)
  else none

/-- The threshold that a text names, in letters of either case or by number. -/
def threshold? (text : String) : Option Threshold :=
  match digitsValue? text.toList with
  | some n => thresholds[n]?.map (·.2)
  | none => (thresholds.find? (·.1 = text.toLower)).map (·.2)

/-- A directive: the beginning of the topics it applies to, the span that has to be open and
the field that an event has to have, each if it says so, and a threshold. -/
structure Directive where
  topic : Option String := none
  span : Option String := none
  field : Option FieldPattern := none
  threshold : Threshold := some .trace
  deriving Repr, DecidableEq

/-- Why a directive is ignored. -/
inductive Mistake where
  | form
  | level
  | field (problem : Pattern.Problem)
  deriving Repr, DecidableEq

/-- The wording of a mistake. -/
def Mistake.message : Mistake → String
  | .form => "invalid filter directive"
  | .level =>
    "error parsing level filter: expected one of \"off\", \"error\", \"warn\", \"info\", " ++
      "\"debug\", \"trace\", or a number 0-5"
  | .field .unreadable => "invalid field filter: error building NFA"
  | .field .unicodeWords =>
    "invalid field filter: unsupported regex feature for DFAs: cannot build DFAs for regexes " ++
      "with Unicode word boundaries; switch to ASCII word boundaries, or heuristically enable " ++
      "Unicode word boundaries or use a different regex engine"

/-- The text of a directive as it is given, and without the blanks around it. -/
structure DirectiveText where
  given : List Char
  bare : List Char

namespace DirectiveText

/-- The text of a directive. -/
def ofText (text : List Char) : DirectiveText := ⟨text, Text.trim text⟩

/-- The number of bytes of the bare text before a rest of it. -/
def offset (text : DirectiveText) (rest : List Char) : Nat :=
  Utf8.size text.bare - Utf8.size rest

/-- The given text from the place where a rest of the bare one starts. -/
def onwards (text : DirectiveText) (start : List Char) : String :=
  String.ofList (Utf8.decodeLossy ((Utf8.encode text.given).drop (text.offset start)))

/-- The part of the given text in the place of the bare one's part between two rests. -/
def between (text : DirectiveText) (start stop : List Char) : String :=
  let bytes := (Utf8.encode text.given).take (text.offset stop)
  String.ofList (Utf8.decodeLossy (bytes.drop (text.offset start)))

end DirectiveText

/-- A character that a directive may start with if it does not start with a bracket. -/
def startsTopic (c : Char) : Bool :=
  Text.isAlphanumeric c || c = '-' || c = ':' || c = '_'

namespace Directive

/-- Gives a directive the level that stands where a rest of the text starts, if any. -/
def withLevel (text : DirectiveText) (directive : Directive) (rest : List Char) :
    Except Mistake Directive :=
  let word := text.onwards rest
  if word = "" then .ok directive
  else
    match threshold? word with
    | some threshold => .ok { directive with threshold }
    | none => .error .level

/-- Reads what follows the brackets. -/
def readLevel (text : DirectiveText) (directive : Directive) (rest : List Char) :
    Except Mistake Directive :=
  match rest with
  | [] => .ok directive
  | '=' :: level => directive.withLevel text level
  | _ => .error .form

/-- Reads from behind the opening brace.  The field is judged before what follows it. -/
def readField (text : DirectiveText) (directive : Directive) (start : List Char) :
    Except Mistake Directive :=
  match start.dropWhile (· ≠ '\x7d') with
  | [] => .error .form
  | brace :: rest =>
    let field := text.between start (brace :: rest)
    if field = "" then .error .form
    else
      match FieldPattern.ofText field.toList with
      | .error problem => .error (.field problem)
      | .ok field =>
        match rest with
        | ']' :: rest => readLevel text { directive with field := some field } rest
        | _ => .error .form

/-- Reads from behind the opening bracket.  A span without a name counts only if no field
follows it. -/
def readSpan (text : DirectiveText) (directive : Directive) (start : List Char) :
    Except Mistake Directive :=
  let stop := start.dropWhile fun c => c ≠ ']' && c ≠ '\x7b'
  let name := text.between start stop
  match stop with
  | [] => .error .form
  | ']' :: rest => readLevel text { directive with span := some name } rest
  | _ :: rest =>
    readField text { directive with span := if name = "" then none else some name } rest

/-- Reads a directive. -/
def read (given : List Char) : Except Mistake Directive :=
  let text := DirectiveText.ofText given
  match text.bare with
  | [] => .error .form
  | '[' :: rest => readSpan text {} rest
  | c :: _ =>
    if !startsTopic c then .error .form
    else
      let stop := text.bare.dropWhile fun c => c ≠ '=' && c ≠ '['
      let topic := text.between text.bare stop
      match stop with
      | [] =>
        let word := text.onwards text.bare
        match threshold? word with
        | some threshold => .ok { threshold }
        | none => .ok { topic := some word }
      | '=' :: level => withLevel text { topic := some topic } level
      | _ :: rest => readSpan text { topic := some topic } rest

end Directive

end Salutation.Log
