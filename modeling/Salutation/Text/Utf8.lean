/-
Bytes and the text they spell.

Arguments, variables, paths and files arrive as bytes, and only some byte lists are
text.  `pieces` cuts a byte list into characters and invalid parts: a part is invalid
when it is as long as possible and still no beginning of a well-formed sequence, which
is how a decoder resynchronises without losing the character that follows.  Everything
else reads the pieces: strict decoding wants all of them to be characters, lenient
decoding writes U+FFFD for each one that is not.

The cutter is a machine that looks at one byte at a time and remembers the sequence it
is inside of.  What makes it right is that the second byte of a sequence carries a
narrower window than the later ones: it excludes overlong forms, surrogates and
numbers above U+10FFFF as soon as they show.
-/

namespace Salutation

/-- Raw bytes, as the outside world hands them over. -/
abbrev Bytes := List UInt8

namespace Utf8

/-- The bytes of a text. -/
def encode (text : List Char) : Bytes :=
  text.flatMap String.utf8EncodeChar

/-- An unfinished sequence: how many bytes it still needs, between which two values the
next one must lie, and the number read so far. -/
structure Pending where
  needed : Nat
  low : Nat
  high : Nat
  value : Nat

/-- What a byte means where no sequence is open. -/
inductive Lead where
  | char (c : Char)
  | opens (pending : Pending)
  | invalid

/-- Reads a byte where no sequence is open. -/
def lead (b : UInt8) : Lead :=
  let n := b.toNat
  if n < 0x80 then .char (Char.ofNat n)
  else if n < 0xC2 then .invalid
  else if n < 0xE0 then .opens ⟨1, 0x80, 0xBF, n - 0xC0⟩
  else if n = 0xE0 then .opens ⟨2, 0xA0, 0xBF, 0⟩
  else if n = 0xED then .opens ⟨2, 0x80, 0x9F, 0xD⟩
  else if n < 0xF0 then .opens ⟨2, 0x80, 0xBF, n - 0xE0⟩
  else if n = 0xF0 then .opens ⟨3, 0x90, 0xBF, 0⟩
  else if n < 0xF4 then .opens ⟨3, 0x80, 0xBF, n - 0xF0⟩
  else if n = 0xF4 then .opens ⟨3, 0x80, 0x8F, 4⟩
  else .invalid

/-- A piece of a byte list: a character, or `none` for an invalid part. -/
abbrev Piece := Option Char

/-- A byte where no sequence is open: the pieces it completes, and the sequence it leaves open. -/
def start (b : UInt8) : List Piece × Option Pending :=
  match lead b with
  | .char c => ([some c], none)
  | .opens p => ([], some p)
  | .invalid => ([none], none)

/-- One byte of the machine.  A byte outside the window ends the open sequence as an
invalid part and is then read afresh, so it is never swallowed. -/
def step (open? : Option Pending) (b : UInt8) : List Piece × Option Pending :=
  match open? with
  | none => start b
  | some p =>
    let n := b.toNat
    if p.low ≤ n ∧ n ≤ p.high then
      let value := p.value * 64 + (n - 0x80)
      if p.needed ≤ 1 then ([some (Char.ofNat value)], none)
      else ([], some ⟨p.needed - 1, 0x80, 0xBF, value⟩)
    else (none :: (start b).1, (start b).2)

/-- The pieces of a byte list, from a given state of the machine. -/
def piecesFrom : Option Pending → Bytes → List Piece
  | none, [] => []
  | some _, [] => [none]
  | open?, b :: rest => (step open? b).1 ++ piecesFrom (step open? b).2 rest

/-- The characters and invalid parts of a byte list, in order. -/
def pieces (bytes : Bytes) : List Piece :=
  piecesFrom none bytes

/-- The text that the pieces spell, if all of them are characters. -/
def allChars : List Piece → Option (List Char)
  | [] => some []
  | none :: _ => none
  | some c :: rest => (allChars rest).map (c :: ·)

/-- The text of a byte list, if it is well-formed throughout. -/
def decode? (bytes : Bytes) : Option (List Char) :=
  allChars (pieces bytes)

/-- The text of a byte list, with U+FFFD for each invalid part. -/
def decodeLossy (bytes : Bytes) : List Char :=
  (pieces bytes).map (·.getD '\uFFFD')

/-- The first character of a byte list and the bytes after it, if one starts there. -/
def uncons? (bytes : Bytes) : Option (Char × Bytes) :=
  [1, 2, 3, 4].findSome? fun n =>
    match decode? (bytes.take n) with
    | some [c] => some (c, bytes.drop n)
    | _ => none

/-- The number of bytes a text takes. -/
def size (text : List Char) : Nat :=
  (encode text).length

end Utf8

/-- The bytes of a string. -/
def bytesOf (s : String) : Bytes :=
  Utf8.encode s.toList

end Salutation
