/-
Writing strings.

Each text gets the plainest form that can hold it: double quotes if nothing needs an
escape, else single quotes, else a block, and escapes only if no other form will do.  A
block may hold its own quote as long as there are never three in a row; where a block is
the last resort, every third quote is escaped.

A text with a line feed is written as a block that starts on a line of its own.  The reader
drops the line ending after the opening quotes, so the text comes back unchanged, even one
that starts with a line feed.
-/
import Salutation.Toml.Quoted

namespace Salutation.Toml

/-- A character that no form holds as it is, except a tab or a line feed. -/
def isControl (c : Char) : Bool :=
  (c < ' ' && c ≠ '\t' && c ≠ '\n') || c = '\x7f'

/-- Whether a text has three of a character in a row. -/
def hasThree (mark : Char) : List Char → Bool
  | a :: b :: c :: rest => (a = mark && b = mark && c = mark) || hasThree mark (b :: c :: rest)
  | _ => false

/-- The form in which a text is written. -/
def formFor (text : List Char) : Form :=
  let controls := text.any isControl
  let line := text.all (· ≠ '\n')
  if !controls && line && text.all fun c => c ≠ '\\' && c ≠ '"' then ⟨'"', true, false⟩
  else if !controls && line && text.all (· ≠ '\'') then ⟨'\'', false, false⟩
  else if !controls && text.all (· ≠ '\\') && !hasThree '"' text then ⟨'"', true, true⟩
  else if !controls && !hasThree '\'' text then ⟨'\'', false, true⟩
  else ⟨'"', true, !line⟩

/-- How a character other than a quote is written where a backslash escapes. -/
def escape (c : Char) : List Char :=
  if c = '\t' then ['\\', 't']
  else if c = '\x08' then ['\\', 'b']
  else if c = '\x0c' then ['\\', 'f']
  else if c = '\r' then ['\\', 'r']
  else if c = '\\' then ['\\', '\\']
  else if isControl c then
    ['\\', 'u', '0', '0', Text.upperHex (c.toNat / 16), Text.upperHex (c.toNat % 16)]
  else [c]

/-- Writes a text with escapes, where `run` quotes stand unescaped right before it.  On one
line every quote is escaped, in a block every third. -/
def writeEscaped (block : Bool) : Nat → List Char → List Char
  | _, [] => []
  | run, c :: rest =>
    if c = '"' then
      if !block || run = 2 then '\\' :: '"' :: writeEscaped block 0 rest
      else '"' :: writeEscaped block (run + 1) rest
    else escape c ++ writeEscaped block 0 rest

/-- Writes a text between the quotes of a form. -/
def writeBody (form : Form) (text : List Char) : List Char :=
  if form.escapes then writeEscaped form.block 0 text else text

/-- Writes a text as a string. -/
def writeString (text : List Char) : List Char :=
  let form := formFor text
  let start := if form.block && '\n' ∈ text then ['\n'] else []
  form.quotes ++ start ++ writeBody form text ++ form.quotes

end Salutation.Toml
