/-
Switches: how a pattern changes the rules for what follows it.

A group may set switches for what is inside of it, `(?i:..)`, and a directive for the rest
of the group it stands in, `(?i)`.  A minus sign turns the switches behind it off.
-/

namespace Salutation.Pattern

/-- What a pattern can turn on and off. -/
inductive Switch where
  | ignoreCase
  | multiLine
  | dotMatchesNewline
  | swapGreed
  /-- Characters are meant rather than single bytes. -/
  | unicode
  /-- A carriage return belongs to the end of a line. -/
  | crlf
  /-- Blanks and comments do not count. -/
  | spaced
  deriving Repr, DecidableEq

/-- The switch that a letter stands for. -/
def Switch.ofLetter? (c : Char) : Option Switch :=
  match c with
  | 'i' => some .ignoreCase
  | 'm' => some .multiLine
  | 's' => some .dotMatchesNewline
  | 'U' => some .swapGreed
  | 'u' => some .unicode
  | 'R' => some .crlf
  | 'x' => some .spaced
  | _ => none

/-- Switches with what they are set to. -/
abbrev Settings := List (Switch × Bool)

/-- What a switch is set to, or else what it was before. -/
def Settings.get (settings : Settings) (switch : Switch) (before : Bool) : Bool :=
  ((settings.find? (·.1 = switch)).map (·.2)).getD before

/-- Whether a character ends the switches. -/
def endsSwitches (c : Char) : Bool := c = ':' || c = ')'

/-- Reads switches.  No switch and no minus sign stands twice, and behind a minus sign there is
a switch.  The character that ends them stays in the rest. -/
def readSettings (on : Bool) (done : Settings) : List Char → Option (Settings × List Char)
  | [] => none
  | c :: rest =>
    if endsSwitches c then some (done, c :: rest)
    else if c = '-' then
      if on && !(rest.head?.any endsSwitches) then readSettings false done rest else none
    else
      match Switch.ofLetter? c with
      | some switch =>
        if done.any (·.1 = switch) then none else readSettings on (done ++ [(switch, on)]) rest
      | none => none

/-- What counts for whether a pattern can be used: the switches in effect. -/
structure Mode where
  unicode : Bool := true
  ignoreCase : Bool := false
  deriving Repr, DecidableEq

/-- A mode after settings. -/
def Mode.change (mode : Mode) (settings : Settings) : Mode where
  unicode := settings.get .unicode mode.unicode
  ignoreCase := settings.get .ignoreCase mode.ignoreCase

end Salutation.Pattern
