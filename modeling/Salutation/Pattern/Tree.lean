/-
Patterns as trees, and which of them can be used.

Nothing is known here about characters beyond ASCII.  So while characters are meant, a
pattern can name no kind of characters and cannot ignore case.  While single bytes are
meant, it can do both, but may not match a part of a longer character.
-/
import Salutation.Pattern.CharSet

namespace Salutation.Pattern

/-- What a pattern is made of. -/
inductive Tree where
  | empty
  /-- A directive: switches for the rest of the group. -/
  | directive (settings : Settings)
  | literal (literal : Literal)
  /-- Any character. -/
  | dot
  | kind (negated : Bool)
  | anchor
  | wordBoundary
  | set (negated : Bool) (contents : CharSet)
  | repeated (part : Tree)
  | group (settings : Settings) (body : Tree)
  | sequence (parts : List Tree)
  | choice (alternatives : List Tree)
  deriving Repr

namespace Tree

/-- The tree of a single place. -/
def ofAtom (atom : Atom) : Tree :=
  match atom with
  | .literal c => .literal c
  | .kind negated => .kind negated
  | .anchor => .anchor
  | .wordBoundary => .wordBoundary

/-- The tree of parts that follow each other. -/
def ofParts (parts : List Tree) : Tree :=
  match parts with
  | [] => .empty
  | [part] => part
  | _ => .sequence parts

/-- The tree of alternatives. -/
def ofAlternatives (alternatives : List Tree) : Tree :=
  match alternatives with
  | [alternative] => alternative
  | _ => .choice alternatives

/-! ### Depth -/

mutual

/-- How deep a pattern is nested. -/
def depth : Tree → Nat
  | .set _ contents => contents.depth + 1
  | .repeated part => depth part + 1
  | .group _ body => depth body + 1
  | .sequence parts => depthOfParts parts + 1
  | .choice alternatives => depthOfParts alternatives + 1
  | _ => 0

/-- How deep the deepest of some patterns is nested. -/
def depthOfParts : List Tree → Nat
  | [] => 0
  | part :: parts => max (depth part) (depthOfParts parts)

end

/-! ### Use -/

/-- What is found out about a pattern from its start to one of its places. -/
structure Survey where
  /-- The rules for what comes next. -/
  mode : Mode := {}
  /-- Words are asked for whose characters may be any letters. -/
  unicodeWords : Bool := false
  deriving Repr, DecidableEq

/-- Whether a literal can be used: letters are folded only in ASCII, and a byte is no part of
a longer character. -/
def fits (mode : Mode) (literal : Literal) : Bool :=
  if mode.unicode then !mode.ignoreCase
  else !(literal.isByte && literal.char.toNat ≥ 0x80)

mutual

/-- Surveys a pattern; there is no answer if it cannot be used.  The switches of a group hold
within it, also from one alternative to the next. -/
def survey (found : Survey) : Tree → Option Survey
  | .empty => some found
  | .directive settings => some { found with mode := found.mode.change settings }
  | .literal c => if fits found.mode c then some found else none
  | .dot => if found.mode.unicode then some found else none
  | .kind negated => if !found.mode.unicode && !negated then some found else none
  | .anchor => some found
  | .wordBoundary =>
    some { found with unicodeWords := found.unicodeWords || found.mode.unicode }
  | .set negated contents =>
    if (CharSet.nested negated contents).isUsable found.mode then some found else none
  | .repeated part => survey found part
  | .group settings body =>
    (survey { found with mode := found.mode.change settings } body).map fun inside =>
      { inside with mode := found.mode }
  | .sequence parts => surveyParts found parts
  | .choice alternatives => surveyParts found alternatives

/-- Surveys patterns one after the other. -/
def surveyParts (found : Survey) : List Tree → Option Survey
  | [] => some found
  | part :: parts => (survey found part).bind fun found => surveyParts found parts

end

end Tree

end Salutation.Pattern
