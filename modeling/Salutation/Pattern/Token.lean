/-
The signs of a pattern, in a row.

Groups are opened and closed here without being matched, except that each of them remembers
whether its surroundings are spaced: a directive for that ends with its group.

A counted repetition, `a{2}`, is no sign.  Patterns stand between braces, where none can be
completed.
-/
import Salutation.Pattern.Tree
import Salutation.Text.Numeral

namespace Salutation.Pattern

/-- A sign of a pattern. -/
inductive Token where
  | part (tree : Tree)
  | repetition
  | bar
  | opening (settings : Settings) (name : Option String)
  | closing
  deriving Repr

namespace Token

/-- Whether a character can stand in the name of a group, behind its first. -/
def isNameCharacter (c : Char) : Bool :=
  Text.isAlphanumeric c || c ∈ ['_', '.', '[', ']']

/-- Whether a text is the name of a group. -/
def isName (text : List Char) : Bool :=
  (text.head?.any fun c => Text.isLetter c || c = '_') && text.all isNameCharacter

/-- Reads the name of a group from behind its opening angle bracket. -/
def readName (text : List Char) : Option (Token × List Char) :=
  let name := text.takeWhile (· ≠ '>')
  match text.dropWhile (· ≠ '>') with
  | _ :: rest => if isName name then some (.opening [] (some (String.ofList name)), rest) else none
  | [] => none

/-- Reads an opening parenthesis, from behind it, with what belongs to it.  A directive is
closed at once; one that sets nothing is none. -/
def readOpening (spaced : Bool) (text : List Char) : Option (Token × List Char) := do
  match skip spaced text with
  | '?' :: 'P' :: '<' :: rest => readName rest
  | '?' :: '<' :: rest => readName rest
  | '?' :: rest =>
    let (settings, rest) ← readSettings true [] rest
    match rest with
    | ':' :: rest => return (.opening settings none, rest)
    | _ => if settings.isEmpty then none else return (.part (.directive settings), rest.tail)
  | rest => return (.opening [] none, rest)

/-- Whether signs are skipped behind a token.  The list holds this for the open groups, the
innermost first. -/
def spacing (spaced : Bool) (outer : List Bool) (token : Token) : Option (Bool × List Bool) :=
  match token with
  | .opening settings _ => some (settings.get .spaced spaced, spaced :: outer)
  | .closing =>
    match outer with
    | spaced :: outer => some (spaced, outer)
    | [] => none
  | .part (.directive settings) => some (settings.get .spaced spaced, outer)
  | _ => some (spaced, outer)

/-- Reads a sign that starts with a given character. -/
def read (spaced : Bool) (c : Char) (rest : List Char) : Option (Token × List Char) :=
  if c = '(' then readOpening spaced rest
  else if c = ')' then some (.closing, rest)
  else if c = '|' then some (.bar, rest)
  else if c ∈ ['*', '+', '?'] then
    some (.repetition, if rest.head? = some '?' then rest.tail else rest)
  else if c = '\x7b' then none
  else if c = '[' then
    (CharSet.read spaced rest).map fun (negated, contents, rest) =>
      (.part (.set negated contents), rest)
  else if c = '\\' then
    (readEscape spaced rest).map fun (atom, rest) => (.part (.ofAtom atom), rest)
  else if c = '.' then some (.part .dot, rest)
  else if c ∈ ['^', '$'] then some (.part .anchor, rest)
  else some (.part (.literal { char := c }), rest)

/-- Reads signs to the end of a text.  The fuel bounds their number. -/
def readAll : Nat → Bool → List Bool → List Char → Option (List Token)
  | 0, _, _, _ => none
  | fuel + 1, spaced, outer, text =>
    match skip spaced text with
    | [] => some []
    | c :: rest => do
      let (token, rest) ← read spaced c rest
      let (spaced, outer) ← spacing spaced outer token
      return token :: (← readAll fuel spaced outer rest)

/-- The signs of a pattern. -/
def ofText? (text : List Char) : Option (List Token) :=
  readAll (text.length + 1) false [] text

/-- The name that a token gives to a group. -/
def name? (token : Token) : Option String :=
  match token with
  | .opening _ name => name
  | _ => none

end Token

end Salutation.Pattern
