/-
Delivering greetings to a writer.

Each delivery writes a record and flushes.  A failure is reported and changes nothing about
what later deliveries do beyond what the writer itself does.
-/
import Salutation.Delivery.Record
import Salutation.Delivery.Writer
import Salutation.Failure
import Salutation.Greeting
import Salutation.Log.Event

namespace Salutation

/-- Delivers a greeting. -/
def deliver (format : Format) (writer : Writer) (greeting : String) :
    Writer × Except IoError Unit :=
  match writer.writeAll (format.pieces greeting) with
  | (writer, .ok ()) => writer.flush
  | (writer, .error error) => (writer, .error error)

/-- Delivers greetings in order, whatever becomes of each; gives the writer after each. -/
def deliverAll (format : Format) : Writer → List String → List (Writer × Except IoError Unit)
  | _, [] => []
  | writer, greeting :: more =>
    let step := deliver format writer greeting
    step :: deliverAll format step.1 more

/-- What comes of carrying out a greeting. -/
structure Delivered where
  writer : Writer
  /-- The greeting, if it was delivered. -/
  result : Except Failure String
  events : List Log.Event

/-- Makes a greeting of what is to be said and delivers it. -/
def carryOut (format : Format) (writer : Writer) (said : Config.Greeting) : Delivered :=
  let greeting := greet said.message said.name
  match deliver format writer greeting with
  | (writer, .ok ()) =>
    ⟨writer, .ok greeting, [.created said.name, .delivered greeting]⟩
  | (writer, .error error) => ⟨writer, .error (.io error), [.created said.name]⟩

/-- Carries out greetings in order, whatever becomes of each. -/
def carryOutAll (format : Format) : Writer → List Config.Greeting → List Delivered
  | _, [] => []
  | writer, said :: more =>
    let step := carryOut format writer said
    step :: carryOutAll format step.writer more

end Salutation
