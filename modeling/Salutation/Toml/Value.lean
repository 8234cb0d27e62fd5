/-
Values.

Strings, numbers, truth values, dates and times stand for themselves; arrays and inline
tables hold further values, to a limited depth.  The reader descends on that depth, and
inside one array or table on the length of what is left of the text.

An array may run over several lines, with comments.  An inline table is one statement: no
line ending between its parts and no comma after the last of them.
-/
import Salutation.Toml.Moment
import Salutation.Toml.Assembly

namespace Salutation.Toml

/-- A reader of values. -/
abbrev ValueReader := List Char → Except Refusal (Node × List Char)

/-- Reads what stands for itself. -/
def scalar (text : List Char) : Except Refusal (Scalar × List Char) :=
  match text with
  | 't' :: 'r' :: 'u' :: 'e' :: rest => .ok (.truth true, rest)
  | 'f' :: 'a' :: 'l' :: 's' :: 'e' :: rest => .ok (.truth false, rest)
  | c :: rest =>
    if c = '"' || c = '\'' then do
      let (s, after) ← anyString c rest
      return (.text (String.ofList s), after)
    else do
      match ← moment? text with
      | some result => return result
      | none => number text
  | [] => refuse text .value

/-- Reads the elements of an array from behind its opening bracket, or from behind a comma.
An element counts as read only with what fills the space behind it, so what is wrong there
is placed at the start of the element. -/
def elements (value : ValueReader) : Nat → List Char → Except Refusal (List Node × List Char)
  | 0, text => refuse text .array
  | fuel + 1, text => do
    match ← afterFiller text with
    | ']' :: rest => return ([], rest)
    | start =>
      let (node, rest) ← value start
      match afterFiller rest with
      | .error _ => refuse start .array
      | .ok (',' :: more) =>
        let (nodes, after) ← elements value fuel more
        return (node :: nodes, after)
      | .ok (']' :: after) => return ([node], after)
      | .ok stuck => refuse stuck .array

/-- Reads an assignment of a value to a dotted key.  A key announces it. -/
def assignment? (value : ValueReader) (text : List Char) :
    Except Refusal (Option (Assignment × List Char)) := do
  match ← keyPath? text with
  | none => return none
  | some (path, '=' :: rest) =>
    let (node, after) ← value (skipSpaces rest)
    return some (⟨path, node⟩, after)
  | some (_, rest) => refuse rest .equals

/-- Reads the assignments of an inline table as far as they go.  A comma that no key
follows is left unread. -/
def members (value : ValueReader) :
    Nat → List Char → Except Refusal (List Assignment × List Char)
  | 0, text => .ok ([], text)
  | fuel + 1, text => do
    match ← assignment? value text with
    | none => return ([], text)
    | some (first, rest) =>
      match skipSpaces rest with
      | ',' :: more =>
        match ← members value fuel more with
        | ([], _) => return ([first], ',' :: more)
        | (others, after) => return (first :: others, after)
      | after => return ([first], after)

/-- The table of an inline table's assignments.  A refusal is placed behind the opening
brace, where `rest` starts. -/
def inlineTable (rest : List Char) (assignments : List Assignment) : Except Refusal Table :=
  match Table.assignAll none assignments [] with
  | .ok table => .ok table
  | .error refusal => .error { refusal with rest := rest }

/-- Reads a value without parts. -/
def leaf : ValueReader := fun text => do
  let (s, rest) ← scalar text
  return (.scalar ⟨text, rest⟩ s, rest)

/-- Reads a value that holds values at most so deep. -/
def valueWithin : Nat → ValueReader
  | 0, text =>
    match text with
    | '[' :: _ => refuse text .nesting
    | '\x7b' :: _ => refuse text .nesting
    | _ => leaf text
  | depth + 1, text =>
    match text with
    | '[' :: rest => do
      let (nodes, after) ← elements (valueWithin depth) text.length rest
      return (.array ⟨text, after⟩ nodes, after)
    | '\x7b' :: rest => do
      let (assignments, stop) ← members (valueWithin depth) text.length rest
      let table ← inlineTable rest assignments
      match skipSpaces stop with
      | '\x7d' :: after => return (.table (.inline ⟨text, after⟩) table, after)
      | stuck => refuse stuck .inlineTable
    | _ => leaf text

/-- Reads a value. -/
def value : ValueReader := valueWithin nestingLimit

end Salutation.Toml
