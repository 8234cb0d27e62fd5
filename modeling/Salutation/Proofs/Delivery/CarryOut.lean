/-
Carrying out greetings in a row, beside delivering them.

Whoever carries out a greeting makes it, delivers it and reports what came of that.  Two runs
stand next to each other here: one is given what is to be said, the other the finished greetings.
The only state of either is the writer, so `carryOut_agrees` takes two runs with the same writer
to two with the same writer again, and by induction they never part.

What is reported is settled by the delivery alone, and of an earlier step nothing is left but the
writer that its delivery left behind.  So a failure is not remembered anywhere.
-/
import Salutation.Delivery.Deliver

namespace Salutation

/-- The greeting that is made of what is to be said. -/
def Config.Greeting.text (said : Config.Greeting) : String := said.message ++ " " ++ said.name

/-- What is carried out agrees with a delivery: the writer is the same afterwards, and reported
is the greeting if the delivery went well, and otherwise the very error of the delivery. -/
structure Delivered.Agrees (step : Delivered) (delivery : Writer × Except IoError Unit)
    (greeting : String) : Prop where
  writer : step.writer = delivery.1
  ok : ∀ reported, step.result = .ok reported ↔ delivery.2 = .ok () ∧ reported = greeting
  error : ∀ failure, step.result = .error failure ↔
    ∃ error, delivery.2 = .error error ∧ failure = .io error

section

variable (format : Format) (writer : Writer)

/-! ### One step -/

/-- **Carrying out a greeting agrees with delivering it.** -/
theorem carryOut_agrees (said : Config.Greeting) :
    (carryOut format writer said).Agrees (deliver format writer said.text) said.text := by
  have hgreet : greet said.message said.name = said.text := rfl
  unfold carryOut
  dsimp only
  rw [hgreet]
  cases hdelivery : deliver format writer said.text with
  | mk left verdict =>
      cases verdict with
      | ok =>
          refine ⟨rfl, fun reported => ?_, fun failure => by simp⟩
          simp [eq_comm]
      | error error =>
          refine ⟨rfl, fun reported => by simp, fun failure => ?_⟩
          simp [eq_comm]

/-! ### Steps in a row -/

theorem carryOutAll_length (all : List Config.Greeting) :
    (carryOutAll format writer all).length = all.length := by
  induction all generalizing writer with
  | nil => rfl
  | cons said more ih => simp [carryOutAll, ih]

/-- **Step by step, carrying out greetings agrees with delivering them**, whatever went wrong
before: each step leaves the writer as the delivery of its greeting does, and reports the greeting
or the error of that delivery.  What the later steps come to depends on the earlier ones through
the writer alone that the deliveries have left behind. -/
theorem carryOutAll_agrees (earlier : List Config.Greeting) (said : Config.Greeting)
    (later : List Config.Greeting) :
    let all := earlier ++ said :: later
    let steps := carryOutAll format writer all
    let deliveries := deliverAll format writer (all.map Config.Greeting.text)
    steps.length = all.length ∧
      ∃ step delivery, steps[earlier.length]? = some step ∧
        deliveries[earlier.length]? = some delivery ∧ step.Agrees delivery said.text ∧
        steps.drop (earlier.length + 1) = carryOutAll format delivery.1 later := by
  intro all steps deliveries
  refine ⟨carryOutAll_length format writer all, ?_⟩
  induction earlier generalizing writer with
  | nil =>
      have hagrees := carryOut_agrees format writer said
      refine ⟨_, _, rfl, rfl, hagrees, ?_⟩
      show carryOutAll format (carryOut format writer said).writer later =
        carryOutAll format (deliver format writer said.text).1 later
      rw [hagrees.writer]
  | cons first more ih =>
      -- Both runs go on with the writer that the first delivery leaves.
      have hsame : (carryOut format writer first).writer = (deliver format writer first.text).1 :=
        (carryOut_agrees format writer first).writer
      have hmore := ih (deliver format writer first.text).1
      rw [← hsame] at hmore
      obtain ⟨step, delivery, hstep, hdelivery, hagrees, hlater⟩ := hmore
      refine ⟨step, delivery, hstep, ?_, hagrees, hlater⟩
      rw [hsame] at hdelivery
      exact hdelivery

end

end Salutation
