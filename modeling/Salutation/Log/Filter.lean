/-
Which events a run shows.

The verbosity sets one level for all topics.  A variable can replace it by directives,
separated by commas.  Of the directives that apply to an event the most specific decides,
and where none applies the event is not shown.
-/
import Salutation.Log.Directive
import Salutation.World.Environment

namespace Salutation.Log

/-- What a text of directives comes to: the directives, and those that are ignored with
the reasons. -/
structure Reading where
  directives : List Directive
  ignored : List (String × Mistake)
  deriving Repr, DecidableEq

/-- Reads directives that are separated by commas; empty ones do not count. -/
def Reading.ofText (text : String) : Reading :=
  ((text.splitOn ",").filter (· ≠ "")).foldl (fun reading part =>
    match Directive.read part.toList with
    | .ok directive => { reading with directives := reading.directives ++ [directive] }
    | .error mistake => { reading with ignored := reading.ignored ++ [(part, mistake)] }) ⟨[], []⟩

/-- Whether a directive applies to an event.  No span is ever open here, so one that asks for
a span, or for a value in one, applies to none. -/
def Directive.appliesTo (directive : Directive) (event : Event) : Bool :=
  let fieldFits :=
    match directive.field with
    | some field => !field.hasValue && field.name ∈ event.fields
    | none => true
  let topicFits :=
    match directive.topic with
    | some beginning => beginning.toList.isPrefixOf event.topic.toList
    | none => true
  directive.span.isNone && fieldFits && topicFits

/-- How specific the topic of a directive is; none at all is the least specific. -/
def Directive.topicSize (directive : Directive) : Nat :=
  match directive.topic with
  | some beginning => beginning.length + 1
  | none => 0

/-- Whether an earlier directive gives way to a later one that applies to the same event.  The
longer topic counts most, then having a field, then the order of the fields' names. -/
def Directive.givesWayTo (earlier later : Directive) : Bool :=
  if earlier.topicSize = later.topicSize then
    match earlier.field, later.field with
    | none, _ => true
    | some _, none => false
    | some mine, some other => mine.name ≤ other.name
  else earlier.topicSize < later.topicSize

/-- The more specific of two directives, and of two equally specific ones the later. -/
def Directive.prevail (earlier? : Option Directive) (later : Directive) : Option Directive :=
  match earlier? with
  | some earlier => if earlier.givesWayTo later then some later else some earlier
  | none => some later

/-- Whether directives show an event. -/
def shows (directives : List Directive) (event : Event) : Bool :=
  match (directives.filter (·.appliesTo event)).foldl Directive.prevail none with
  | some directive => admits directive.threshold event.level
  | none => false

/-- What a run goes by: the directives of the variable, or else the level of the verbosity. -/
def reading (environment : Environment) (verbosity : Verbosity) : Reading :=
  let given := Reading.ofText ((environment.text? "RUST_LOG").getD "")
  if given.directives.isEmpty then
    { given with directives := [{ threshold := some (Level.ofVerbosity verbosity) }] }
  else given

end Salutation.Log
