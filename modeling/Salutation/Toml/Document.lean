/-
Documents.

A document is read statement by statement, one to a line, and then put together.  Both can
fail, and the fault that comes first in the text is the one that counts: the statements
before the place where reading got stuck are put together first, and only if that goes well
is the sticking point the refusal.
-/
import Salutation.Toml.Value

namespace Salutation.Toml

/-- Reads a header, up to the end of its line. -/
def header (text : List Char) : Except Refusal (Header × List Char) := do
  let isElement := text.take 2 = ['[', '[']
  let closing := if isElement then "]]" else "]"
  let inner := text.drop (if isElement then 2 else 1)
  match ← keyPath? inner with
  | none => refuse inner .key
  | some (path, rest) =>
    if closing.toList.isPrefixOf rest then
      let after := rest.drop closing.length
      let next ← lineEnd after
      return (⟨⟨text, after⟩, path, isElement⟩, next)
    else refuse rest (.header closing)

/-- Reads a statement, up to the end of its line. -/
def statement (text : List Char) : Except Refusal (Statement × List Char) :=
  match text with
  | '[' :: _ => do
    let (h, rest) ← header text
    return (.header h, rest)
  | _ => do
    match ← assignment? value text with
    | none => refuse text .key
    | some (a, rest) =>
      let next ← lineEnd rest
      return (.assign a, next)

/-- Reads statements until the text ends or reading gets stuck.  Each takes at least one
character, so the length of the text bounds their number. -/
def statements : Nat → List Char → List Statement × Option Refusal
  | 0, _ => ([], none)
  | fuel + 1, text =>
    let text := skipSpaces text
    let blank? :=
      match text with
      | '#' :: _ => some (lineEnd text)
      | _ => (newline? text).map .ok
    match text, blank? with
    | [], _ => ([], none)
    | _, some (.ok rest) => statements fuel rest
    | _, some (.error refusal) => ([], some refusal)
    | _, none =>
      match statement text with
      | .error refusal => ([], some refusal)
      | .ok (first, rest) =>
        let (others, stuck?) := statements fuel rest
        (first :: others, stuck?)

/-- A text without a byte order mark at its start. -/
def skipByteOrderMark (text : List Char) : List Char :=
  match text with
  | '\uFEFF' :: rest => rest
  | _ => text

/-- Reads a document. -/
def document (text : List Char) : Except Refusal Table :=
  let body := skipByteOrderMark text
  let (all, stuck?) := statements (body.length + 1) body
  match assemble all, stuck? with
  | .error refusal, _ => .error refusal
  | .ok _, some refusal => .error refusal
  | .ok table, none => .ok table

end Salutation.Toml
