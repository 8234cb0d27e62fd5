/-
Log events.

An event has a level, a topic that filters go by, and a text.  Its text is one message,
perhaps followed by a field.  Characters in a message that could steer a terminal are
spelled out; a field shows as it is, or quoted where the event says so.
-/
import Salutation.Config
import Salutation.Config.Load
import Salutation.Text.Quoted

namespace Salutation.Log

/-- How important an event is, from the most to the least. -/
inductive Level where
  | error
  | warn
  | info
  | debug
  | trace
  deriving Repr, DecidableEq

namespace Level

/-- The rank of a level; a higher one is less important. -/
def rank : Level → Nat
  | .error => 1
  | .warn => 2
  | .info => 3
  | .debug => 4
  | .trace => 5

/-- The level of events that a verbosity still shows. -/
def ofVerbosity : Verbosity → Level
  | .quiet => .error
  | .normal => .warn
  | .verbose => .info
  | .debug => .debug

/-- The name of a level. -/
def name : Level → String
  | .error => "error"
  | .warn => "warn"
  | .info => "info"
  | .debug => "debug"
  | .trace => "trace"

/-- The label of a level in a log line, five characters wide. -/
def label : Level → String
  | .error => "ERROR"
  | .warn => " WARN"
  | .info => " INFO"
  | .debug => "DEBUG"
  | .trace => "TRACE"

end Level

/-- What a run logs. -/
inductive Event where
  | usingFile (path : Path)
  | usingDefaults
  | unknownKey (warning : Config.Warning)
  | created (name : String)
  | delivered (greeting : String)
  deriving Repr, DecidableEq

/-- A character of a message, spelled out if a terminal would act on it. -/
def harmless (c : Char) : List Char :=
  if c = '\x1b' || c = '\x07' || c = '\x08' || c = '\x0c' || c = '\x7f' then
    let digits := Text.hexDigits c.toNat
    ['\\', 'x'] ++ List.replicate (2 - digits.length) '0' ++ digits
  else if 0x80 ≤ c.toNat && c.toNat ≤ 0x9f then
    ['\\', 'u', '\x7b'] ++ Text.hexDigits c.toNat ++ ['\x7d']
  else [c]

/-- The message about an unknown key. -/
def unknownKeyMessage (warning : Config.Warning) : String :=
  let place :=
    match warning.line with
    | some line => warning.file.display ++ ":" ++ toString line
    | none => warning.file.display
  let hint :=
    match warning.suggestion with
    | some suggestion => " (did you mean '" ++ suggestion ++ "'?)"
    | none => ""
  "unknown config key '" ++ warning.key ++ "' in " ++ place ++ hint

namespace Event

/-- The level of an event. -/
def level : Event → Level
  | .usingFile _ => .debug
  | .usingDefaults => .debug
  | .unknownKey _ => .warn
  | .created _ => .debug
  | .delivered _ => .info

/-- The topic of an event. -/
def topic : Event → String
  | .usingFile _ => "greeter"
  | .usingDefaults => "greeter"
  | .unknownKey _ => "greeter"
  | .created _ => "greeter::application::greet"
  | .delivered _ => "greeter::application::greet"

/-- The names of an event's fields.  The message is one of them. -/
def fields : Event → List String
  | .usingFile _ => ["message", "path"]
  | .usingDefaults => ["message"]
  | .unknownKey _ => ["message"]
  | .created _ => ["message", "name"]
  | .delivered _ => ["message", "greeting"]

/-- The text of an event. -/
def text : Event → String
  | .usingFile path => "using config file path=" ++ path.display
  | .usingDefaults => "no config file found, using defaults"
  | .unknownKey warning =>
    String.ofList ((unknownKeyMessage warning).toList.flatMap harmless)
  | .created name => "created greeter name=" ++ String.ofList (Text.quoted name.toList)
  | .delivered greeting => "delivered greeting greeting=" ++ greeting

/-- The line of an event, with the time at which it happened. -/
def line (time : String) (event : Event) : String :=
  time ++ " " ++ event.level.label ++ " " ++ event.text ++ "\n"

end Event

end Salutation.Log
