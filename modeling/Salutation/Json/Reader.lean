/-
What a JSON text means.

The program only writes JSON; this is how a recipient reads it.  Blanks may stand between
the parts, members may have any names, and inside a string any character may be escaped,
one beyond the first plane as a pair of surrogates.  Only the kinds of values that are ever
written can be read, so a text with a number or an array in it has no meaning here.

Strings are read by a machine, a character at a time.  Its mode says what the character
before was the beginning of.
-/
import Salutation.Json.Value

namespace Salutation.Json

/-- A blank between the parts of a text. -/
def isBlank (c : Char) : Bool := c = ' ' || c = '\t' || c = '\n' || c = '\r'

/-- A text without the blanks at its start. -/
def skipBlanks (text : List Char) : List Char := text.dropWhile isBlank

/-- What the characters of a string read so far are the beginning of. -/
inductive Mode where
  | plain
  /-- After a backslash. -/
  | escaped
  /-- Inside a number: the digits still needed, the number so far, and the leading surrogate
  before it if there is one. -/
  | number (needed value : Nat) (leading? : Option Nat)
  /-- After a leading surrogate, whose other half has to follow. -/
  | halfway (leading : Nat)
  /-- After a leading surrogate and a backslash. -/
  | halfwayEscaped (leading : Nat)
  deriving Repr, DecidableEq

/-- The character that a letter after a backslash stands for. -/
def shortEscape? (c : Char) : Option Char :=
  match c with
  | '"' => some '"'
  | '\\' => some '\\'
  | '/' => some '/'
  | 'b' => some '\x08'
  | 'f' => some '\x0c'
  | 'n' => some '\n'
  | 'r' => some '\r'
  | 't' => some '\t'
  | _ => none

/-- Whether a number is a leading surrogate. -/
def isLeading (n : Nat) : Bool := 0xD800 ≤ n && n < 0xDC00

/-- Whether a number is a trailing surrogate. -/
def isTrailing (n : Nat) : Bool := 0xDC00 ≤ n && n < 0xE000

/-- The character that two surrogates stand for together. -/
def paired (leading trailing : Nat) : Char :=
  Char.ofNat (0x10000 + (leading - 0xD800) * 0x400 + (trailing - 0xDC00))

/-- Puts a character in front of what a reader read. -/
def push (c : Char) (result : Option (List Char × List Char)) : Option (List Char × List Char) :=
  result.map fun (text, rest) => (c :: text, rest)

/-- Reads a string from behind its opening quote. -/
def readString : Mode → List Char → Option (List Char × List Char)
  | _, [] => none
  | mode, c :: rest =>
    match mode with
    | .plain =>
      if c = '"' then some ([], rest)
      else if c = '\\' then readString .escaped rest
      else if c < ' ' then none
      else push c (readString .plain rest)
    | .escaped =>
      if c = 'u' then readString (.number 4 0 none) rest
      else
        match shortEscape? c with
        | some e => push e (readString .plain rest)
        | none => none
    | .number needed value leading? =>
      match Text.hexValue? c with
      | none => none
      | some digit =>
        let value := value * 16 + digit
        if 1 < needed then readString (.number (needed - 1) value leading?) rest
        else
          match leading? with
          | some leading =>
            if isTrailing value then push (paired leading value) (readString .plain rest)
            else none
          | none =>
            if isLeading value then readString (.halfway value) rest
            else if isTrailing value then none
            else push (Char.ofNat value) (readString .plain rest)
    | .halfway leading =>
      if c = '\\' then readString (.halfwayEscaped leading) rest else none
    | .halfwayEscaped leading =>
      if c = 'u' then readString (.number 4 0 (some leading)) rest else none

mutual

/-- Reads a value. -/
def readValue : Nat → List Char → Option (Value × List Char)
  | 0, _ => none
  | fuel + 1, text =>
    match skipBlanks text with
    | '"' :: rest =>
      (readString .plain rest).map fun (s, after) => (.string (String.ofList s), after)
    | '\x7b' :: rest =>
      match skipBlanks rest with
      | '\x7d' :: after => some (.object [], after)
      | start => (readMembers fuel start).map fun (members, after) => (.object members, after)
    | _ => none

/-- Reads members up to the closing brace. -/
def readMembers : Nat → List Char → Option (List (String × Value) × List Char)
  | 0, _ => none
  | fuel + 1, text =>
    match skipBlanks text with
    | '"' :: rest =>
      match readString .plain rest with
      | none => none
      | some (name, rest) =>
        match skipBlanks rest with
        | ':' :: rest =>
          match readValue fuel rest with
          | none => none
          | some (value, rest) =>
            match skipBlanks rest with
            | '\x7d' :: after => some ([(String.ofList name, value)], after)
            | ',' :: rest =>
              (readMembers fuel rest).map fun (more, after) =>
                ((String.ofList name, value) :: more, after)
            | _ => none
        | _ => none
    | _ => none

end

/-- The value that a text means.  Every value and every member takes at least one character,
so the length of the text bounds their number. -/
def read? (text : List Char) : Option Value :=
  match readValue (text.length + 1) text with
  | some (value, rest) => if (skipBlanks rest).isEmpty then some value else none
  | none => none

end Salutation.Json
