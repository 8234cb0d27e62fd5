/-
Sets of characters, between brackets.

A set lists characters, ranges, kinds and further sets.  An operator between two lists makes
one set of both: what they share, what only the first has, or what only one of them has.  A
caret behind the opening bracket turns a set around.  A minus sign in front stands for
itself, and so does a closing bracket that would leave the set empty.
-/
import Salutation.Pattern.Atom

namespace Salutation.Pattern

/-- What a set is made of. -/
inductive CharSet where
  | empty
  | one (literal : Literal)
  | range (first last : Literal)
  | kind (negated : Bool)
  /-- A class of ASCII characters by name, `[:alpha:]`. -/
  | named (negated : Bool)
  | nested (negated : Bool) (contents : CharSet)
  | union (parts : List CharSet)
  /-- Two sets with an operator between them. -/
  | combined (left right : CharSet)
  deriving Repr

namespace CharSet

/-- A set of some parts. -/
def ofParts (parts : List CharSet) : CharSet :=
  match parts with
  | [] => .empty
  | [part] => part
  | _ => .union parts

/-! ### Which sets can be used -/

/-- Whether a literal can be in a set: letters are folded only in ASCII, and a set of bytes
holds no part of a longer character. -/
def holds (mode : Mode) (literal : Literal) : Bool :=
  if mode.unicode then !mode.ignoreCase else literal.char.toNat < 0x80

mutual

/-- Whether a set can be used.  Kinds are known for ASCII alone, and no set of bytes can be
turned around, because then it would hold parts of longer characters. -/
def isUsable (mode : Mode) : CharSet → Bool
  | .empty => true
  | .one literal => holds mode literal
  | .range first last => holds mode first && holds mode last
  | .kind negated => !mode.unicode && !negated
  | .named negated => if mode.unicode then !mode.ignoreCase else !negated
  | .nested negated contents => (mode.unicode || !negated) && isUsable mode contents
  | .union parts => areUsable mode parts
  | .combined left right => isUsable mode left && isUsable mode right

/-- Whether sets can be used. -/
def areUsable (mode : Mode) : List CharSet → Bool
  | [] => true
  | part :: parts => isUsable mode part && areUsable mode parts

end

mutual

/-- How deep a set is nested. -/
def depth : CharSet → Nat
  | .nested _ contents => depth contents + 1
  | .union parts => depthOfParts parts + 1
  | .combined left right => max (depth left) (depth right) + 1
  | _ => 0

/-- How deep the deepest of some sets is nested. -/
def depthOfParts : List CharSet → Nat
  | [] => 0
  | part :: parts => max (depth part) (depthOfParts parts)

end

/-! ### Reading -/

/-- The classes of ASCII characters that have a name. -/
def classNames : List String := [
  "alnum", "alpha", "ascii", "blank", "cntrl", "digit", "graph", "lower", "print", "punct",
  "space", "upper", "word", "xdigit"]

/-- Reads a class by name from behind its opening bracket, and whether it is turned around. -/
def readNamed? (text : List Char) : Option (Bool × List Char) := do
  let inner ← if text.head? = some ':' then some text.tail else none
  let negated := inner.head? = some '^'
  let inner := if negated then inner.tail else inner
  let name := String.ofList (inner.takeWhile (· ≠ ':'))
  match inner.dropWhile (· ≠ ':') with
  | ':' :: ']' :: rest => if name ∈ classNames then some (negated, rest) else none
  | _ => none

/-- Reads what can be a member of a set or an end of a range. -/
def readMember (spaced : Bool) (text : List Char) : Option (Atom × List Char) :=
  match text with
  | [] => none
  | '\\' :: rest => readEscape spaced rest
  | c :: rest => some (.literal { char := c }, rest)

/-- The set of a single member; no place between characters is one. -/
def ofAtom? (atom : Atom) : Option CharSet :=
  match atom with
  | .literal literal => some (.one literal)
  | .kind negated => some (.kind negated)
  | .anchor => none
  | .wordBoundary => none

/-- The set of all characters from one to another. -/
def range? (first last : Atom) : Option CharSet :=
  match first, last with
  | .literal first, .literal last =>
    if first.char ≤ last.char then some (.range first last) else none
  | _, _ => none

/-- What follows a minus sign, to tell whether it makes a range: the next character that
is not blank, looked for within a comment as well. -/
def next? (spaced : Bool) (text : List Char) : Option Char :=
  if spaced then
    match Text.trimStart text with
    | '#' :: rest => (Text.trimStart rest).head?
    | rest => rest.head?
  else text.head?

/-- Reads a member or a range. -/
def readRange (spaced : Bool) (text : List Char) : Option (CharSet × List Char) := do
  let (first, rest) ← readMember spaced text
  let alone := (ofAtom? first).map (·, rest)
  match skip spaced rest with
  | '-' :: after =>
    if next? spaced after = some ']' || next? spaced after = some '-' then alone
    else
      let (last, rest) ← readMember spaced (skip spaced after)
      let range ← range? first last
      return (range, rest)
  | _ => alone

/-- A set whose closing bracket has not been read. -/
structure Unclosed where
  negated : Bool
  /-- Nothing but minus signs has been read. -/
  atStart : Bool := true
  /-- What stands before the last operator. -/
  left : Option CharSet := none
  /-- The parts behind the last operator, the latest first. -/
  parts : List CharSet := []

namespace Unclosed

/-- A set with one more part. -/
def add (set : Unclosed) (part : CharSet) : Unclosed :=
  { set with parts := part :: set.parts }

/-- What has been read of a set. -/
def contents (set : Unclosed) : CharSet :=
  let last := ofParts set.parts.reverse
  match set.left with
  | some left => .combined left last
  | none => last

/-- A set behind an operator. -/
def operator (set : Unclosed) : Unclosed :=
  { set with left := some set.contents, parts := [] }

end Unclosed

/-- Reads from behind an opening bracket up to the first member. -/
def start (spaced : Bool) (text : List Char) : Unclosed × List Char :=
  match skip spaced text with
  | '^' :: rest => ({ negated := true }, rest)
  | rest => ({ negated := false }, rest)

/-- Reads a set to its closing bracket, the innermost open set first.  The fuel bounds the
number of signs. -/
def readOpen (spaced : Bool) :
    Nat → Unclosed → List Unclosed → List Char → Option (Bool × CharSet × List Char)
  | 0, _, _, _ => none
  | fuel + 1, set, outer, text =>
    let later := { set with atStart := false }
    match skip spaced text with
    | [] => none
    | c :: rest =>
      if set.atStart && c = '-' then
        readOpen spaced fuel (set.add (.one { char := c })) outer rest
      else if set.atStart && set.parts.isEmpty && c = ']' then
        readOpen spaced fuel (later.add (.one { char := c })) outer rest
      else if c = '[' then
        match readNamed? rest with
        | some (negated, rest) => readOpen spaced fuel (later.add (.named negated)) outer rest
        | none =>
          let (inner, rest) := start spaced rest
          readOpen spaced fuel inner (later :: outer) rest
      else if c = ']' then
        match outer with
        | [] => some (set.negated, set.contents, rest)
        | around :: outer =>
          readOpen spaced fuel (around.add (.nested set.negated set.contents)) outer rest
      else if c ∈ ['&', '-', '~'] && rest.head? = some c then
        readOpen spaced fuel later.operator outer rest.tail
      else
        match readRange spaced (c :: rest) with
        | some (part, rest) => readOpen spaced fuel (later.add part) outer rest
        | none => none

/-- Reads a set from behind its opening bracket: whether it is turned around, what is in it,
and what follows it. -/
def read (spaced : Bool) (text : List Char) : Option (Bool × CharSet × List Char) :=
  let (set, rest) := start spaced text
  readOpen spaced (rest.length + 1) set [] rest

end CharSet

end Salutation.Pattern
