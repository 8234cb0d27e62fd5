/-
Reading patterns, and what is wrong with those that cannot be used.

The signs of a pattern are put together from left to right.  What has been read lies in the
open groups, the innermost first, and a closing parenthesis puts a whole group into the one
around it.
-/
import Salutation.Pattern.Token

namespace Salutation.Pattern

/-- A group whose closing parenthesis has not been read. -/
structure Group where
  settings : Settings := []
  /-- The alternatives before the last one, the latest first. -/
  alternatives : List Tree := []
  /-- The parts of the last alternative, the latest first. -/
  parts : List Tree := []

namespace Group

/-- A group with one more part. -/
def add (group : Group) (part : Tree) : Group :=
  { group with parts := part :: group.parts }

/-- The last alternative of a group. -/
def last (group : Group) : Tree := .ofParts group.parts.reverse

/-- A group with one more alternative to come. -/
def choose (group : Group) : Group :=
  { group with alternatives := group.last :: group.alternatives, parts := [] }

/-- What is in a group. -/
def body (group : Group) : Tree := .ofAlternatives (group.last :: group.alternatives).reverse

/-- A group with its last part repeated; there has to be one, and a directive is none. -/
def repeat? (group : Group) : Option Group :=
  match group.parts with
  | [] => none
  | .directive _ :: _ => none
  | part :: parts => some { group with parts := .repeated part :: parts }

end Group

namespace Tree

/-- Puts signs together. -/
def ofTokens? (group : Group) (outer : List Group) : List Token → Option Tree
  | [] => if outer.isEmpty then some group.body else none
  | .part tree :: tokens => ofTokens? (group.add tree) outer tokens
  | .repetition :: tokens => group.repeat?.bind fun group => ofTokens? group outer tokens
  | .bar :: tokens => ofTokens? group.choose outer tokens
  | .opening settings _ :: tokens => ofTokens? { settings } (group :: outer) tokens
  | .closing :: tokens =>
    match outer with
    | [] => none
    | around :: outer => ofTokens? (around.add (.group group.settings group.body)) outer tokens

/-- Reads a pattern.  No two groups have the same name. -/
def ofText? (text : List Char) : Option Tree := do
  let tokens ← Token.ofText? text
  if (tokens.filterMap Token.name?).Nodup then ofTokens? {} [] tokens else none

end Tree

/-- Why a pattern cannot be used. -/
inductive Problem where
  /-- It is not well formed, or asks for what is not known. -/
  | unreadable
  /-- It asks for words whose characters may be any letters. -/
  | unicodeWords
  deriving Repr, DecidableEq

/-- The deepest nesting that is allowed. -/
def depthLimit : Nat := 250

/-- What is wrong with a pattern. -/
def problem? (text : List Char) : Option Problem :=
  match Tree.ofText? text with
  | none => some .unreadable
  | some tree =>
    if tree.depth > depthLimit then some .unreadable
    else
      match tree.survey {} with
      | none => some .unreadable
      | some survey => if survey.unicodeWords then some .unicodeWords else none

end Salutation.Pattern
