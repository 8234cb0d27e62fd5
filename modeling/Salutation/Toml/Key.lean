/-
Keys.

A key is bare (ASCII letters, digits, underscores and hyphens) or a one-line string.  Keys
joined by points form a path; spaces may stand around each of them.

A path may be missing, and one with too many keys counts as missing.  Only what a quoted
key may not hold is refused here: a point that no key follows is left for the caller, who
needs something else in its place.
-/
import Salutation.Toml.Quoted

namespace Salutation.Toml

/-- How deep values may nest, and how many keys a path may have. -/
def nestingLimit : Nat := 79

/-- A character of a bare key. -/
def isBare (c : Char) : Bool := c.isAlphanum || c = '_' || c = '-'

/-- Reads one key. -/
def simpleKey? (text : List Char) : Except Refusal (Option (Key × List Char)) :=
  match text with
  | [] => .ok none
  | c :: rest =>
    if c = '"' || c = '\'' then do
      let (name, after) ← lineString c rest
      return some (⟨String.ofList name, ⟨text, after⟩⟩, after)
    else if isBare c then
      let after := text.dropWhile isBare
      .ok (some (⟨String.ofList (text.takeWhile isBare), ⟨text, after⟩⟩, after))
    else .ok none

/-- Reads a path of any length, and the spaces around its keys.  The fuel bounds the number
of keys. -/
def keyPathFrom? : Nat → List Char → Except Refusal (Option (KeyPath × List Char))
  | 0, _ => .ok none
  | fuel + 1, text => do
    match ← simpleKey? (skipSpaces text) with
    | none => return none
    | some (key, rest) =>
      match skipSpaces rest with
      | '.' :: more =>
        match ← keyPathFrom? fuel more with
        | some (path, after) => return some (⟨key :: path.parents, path.last⟩, after)
        | none => return some (⟨[], key⟩, '.' :: more)
      | after => return some (⟨[], key⟩, after)

/-- Reads a path that is not too long.  A path lies within one line, which has more
characters than the path has keys. -/
def keyPath? (text : List Char) : Except Refusal (Option (KeyPath × List Char)) := do
  match ← keyPathFrom? ((text.takeWhile (· ≠ '\n')).length + 1) text with
  | some (path, rest) =>
    return if path.keys.length ≤ nestingLimit then some (path, rest) else none
  | none => return none

end Salutation.Toml
