/-
Strings.

TOML has four forms: between double quotes with escapes or between single quotes without,
each on one line or as a block between triple quotes.  One machine reads all four, a
character at a time.  Its mode says what the character before was the beginning of: an
escape, a code point, a line ending, or the run of blanks that a backslash at the end of
a line swallows.

A block may end in up to five quotes: the last three close it and the others belong to it.
A line ending right after the opening quotes does not belong to it.

A refusal stands at the character that does not belong, except that an unknown escape is
read to its end first, so its refusal stands behind it.
-/
import Salutation.Text.Hex
import Salutation.Toml.Filler

namespace Salutation.Toml

/-- A form of string: its quote, whether backslashes escape, and whether it is a block. -/
structure Form where
  mark : Char
  escapes : Bool
  block : Bool
  deriving Repr, DecidableEq

/-- The quotes that open a form, and that close it. -/
def Form.quotes (form : Form) : List Char :=
  List.replicate (if form.block then 3 else 1) form.mark

/-- What the characters read so far are the beginning of. -/
inductive Mode where
  | plain
  /-- After a backslash. -/
  | escaped
  /-- Inside a code point: the digits still needed, and the number so far. -/
  | codePoint (needed : Nat) (value : Nat)
  /-- After a carriage return, which must be followed by a line feed. -/
  | carriageReturn (swallow : Bool)
  /-- After a backslash at the end of a line, while blanks are swallowed. -/
  | swallowing
  deriving Repr, DecidableEq

/-- The character that a one-letter escape stands for. -/
def shortEscape? (c : Char) : Option Char :=
  match c with
  | 'b' => some '\x08'
  | 't' => some '\t'
  | 'n' => some '\n'
  | 'f' => some '\x0c'
  | 'r' => some '\r'
  | '"' => some '"'
  | '\\' => some '\\'
  | _ => none

/-- The character with a given code point, if there is one. -/
def scalarValue? (n : Nat) : Option Char :=
  if n.isValidChar then some (Char.ofNat n) else none

/-- The end of a string, if it is next: the quotes that still belong to the string, and
what follows it. -/
def closing? (form : Form) (text : List Char) : Option (List Char × List Char) :=
  if form.block then
    let run := (text.take 5).takeWhile (· = form.mark)
    if run.length < 3 then none else some (run.drop 3, text.drop run.length)
  else
    match text with
    | c :: rest => if c = form.mark then some ([], rest) else none
    | [] => none

/-- Reads a string from behind its opening quotes to behind its closing ones. -/
def stringBody (form : Form) : Mode → List Char → Except Refusal (List Char × List Char)
  | _, [] => refuse [] .text
  | mode, c :: rest =>
    match mode with
    | .escaped =>
      match shortEscape? c with
      | some e => push e (stringBody form .plain rest)
      | none =>
        if c = 'u' then stringBody form (.codePoint 4 0) rest
        else if c = 'U' then stringBody form (.codePoint 8 0) rest
        else if form.block && (newline? (skipSpaces (c :: rest))).isSome then
          if c = '\r' then stringBody form (.carriageReturn true) rest
          else stringBody form .swallowing rest
        else refuse rest .text
    | .codePoint needed value =>
      match Text.hexValue? c with
      | none => refuse (c :: rest) .text
      | some digit =>
        let value := value * 16 + digit
        if needed ≤ 1 then
          match scalarValue? value with
          | some e => push e (stringBody form .plain rest)
          | none => refuse (c :: rest) .text
        else stringBody form (.codePoint (needed - 1) value) rest
    | .carriageReturn swallow =>
      if c = '\n' then
        if swallow then stringBody form .swallowing rest
        else push '\n' (stringBody form .plain rest)
      else refuse (c :: rest) .text
    | _ =>
      let swallowing := mode = .swallowing
      if swallowing && (isSpace c || c = '\n') then stringBody form .swallowing rest
      else if form.block && c = '\r' then stringBody form (.carriageReturn swallowing) rest
      else
        match closing? form (c :: rest) with
        | some (quotes, after) => .ok (quotes, after)
        | none =>
          if form.escapes && c = '\\' then stringBody form .escaped rest
          else if isPlain c || (form.block && c = '\n') then
            push c (stringBody form .plain rest)
          else refuse (c :: rest) .text

/-- Reads a one-line string, given what follows its opening quote. -/
def lineString (mark : Char) (rest : List Char) : Except Refusal (List Char × List Char) :=
  stringBody ⟨mark, mark = '"', false⟩ .plain rest

/-- Reads a block, given what follows its opening quotes. -/
def blockString (mark : Char) (rest : List Char) : Except Refusal (List Char × List Char) :=
  stringBody ⟨mark, mark = '"', true⟩ .plain ((newline? rest).getD rest)

/-- Reads a string of any form, given its first quote and what follows. -/
def anyString (mark : Char) (rest : List Char) : Except Refusal (List Char × List Char) :=
  match rest with
  | a :: b :: more => if a = mark && b = mark then blockString mark more else lineString mark rest
  | _ => lineString mark rest

end Salutation.Toml
