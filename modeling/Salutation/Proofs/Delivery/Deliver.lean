/-
Deliveries to a writer that may run out of room, or whose flush may fail.

`filled_writeAll` makes a delivery a step from one stream to a longer one: a writer that has
been offered the records so far has, after one more delivery, been offered one more record.
So the writer after each delivery is known from the records alone, and nothing of how they
were written or of what went wrong on the way is left in it.

A record is never empty, because its line feed is not.  Without that, a delivery to a writer
that is full already could succeed.
-/
import Salutation.Delivery.Deliver
import Salutation.Proofs.Delivery.Record
import Salutation.Proofs.Delivery.Writer

namespace Salutation

/-! ### Records -/

/-- The records of greetings, one after another. -/
def records (format : Format) (greetings : List String) : Bytes :=
  greetings.flatMap format.record

@[simp] theorem records_nil (format : Format) : records format [] = [] := rfl

@[simp] theorem records_cons (format : Format) (greeting : String) (more : List String) :
    records format (greeting :: more) = format.record greeting ++ records format more := rfl

theorem records_append (format : Format) (first more : List String) :
    records format (first ++ more) = records format first ++ records format more :=
  List.flatMap_append

/-! ### One delivery -/

/-- What comes of a delivery after which a writer has been offered so many bytes. -/
def Writer.verdict (writer : Writer) (count : Nat) : Except IoError Unit :=
  if exceeds writer.limit count then .error writer.fullError
  else
    match writer.flushError with
    | none => .ok ()
    | some error => .error error

/-- **A delivery offers the writer one more record, whatever became of the others.** -/
theorem deliver_filled (format : Format) (writer : Writer) (stream : Bytes) (greeting : String) :
    deliver format (writer.filled stream) greeting =
      (writer.filled (stream ++ format.record greeting),
        writer.verdict (stream ++ format.record greeting).length) := by
  unfold deliver Writer.verdict
  rw [Writer.filled_writeAll, flatten_pieces]
  by_cases hexceeds : exceeds writer.limit (stream ++ format.record greeting).length = true
  · have hneither : ¬(format.record greeting = [] ∨
        exceeds writer.limit (stream ++ format.record greeting).length = false) := by
      rw [hexceeds]
      simp [record_ne_nil]
    rw [if_neg hneither, if_pos hexceeds]
  · rw [if_pos (Or.inr (by simpa using hexceeds)), if_neg hexceeds]
    simp only [Writer.flush, Writer.filled_flushError]
    cases writer.flushError <;> rfl

/-! ### Deliveries in a row -/

theorem deliverAll_length (format : Format) (writer : Writer) (greetings : List String) :
    (deliverAll format writer greetings).length = greetings.length := by
  induction greetings generalizing writer with
  | nil => rfl
  | cons greeting more ih => simp [deliverAll, ih]

/-- What is known after each delivery: what the writer has been offered, and the verdict. -/
theorem deliverAll_filled (format : Format) (writer : Writer) (stream : Bytes)
    (greetings : List String) (k : Nat) (hk : k < greetings.length) :
    (deliverAll format (writer.filled stream) greetings)[k]? =
      some (writer.filled (stream ++ records format (greetings.take (k + 1))),
        writer.verdict (stream ++ records format (greetings.take (k + 1))).length) := by
  induction greetings generalizing stream k with
  | nil => simp at hk
  | cons greeting more ih =>
      simp only [deliverAll, deliver_filled]
      cases k with
      | zero => simp
      | succ k =>
          have hmore := ih (stream ++ format.record greeting) k (by simpa using hk)
          simpa [List.append_assoc] using hmore

/-- An empty writer with a limit, whose flush may fail. -/
def limitedWriter (limit : Option Nat) (flushFails : Bool) : Writer :=
  { limit := limit, flushError := if flushFails then some .flushFailed else none }

theorem limitedWriter_filled (limit : Option Nat) (flushFails : Bool) :
    (limitedWriter limit flushFails).filled [] = limitedWriter limit flushFails :=
  Writer.filled_nil rfl

/-- Which verdict a writer with a limit gives, case by case. -/
theorem limitedWriter_verdict (limit : Option Nat) (flushFails : Bool) (count : Nat) :
    ((limitedWriter limit flushFails).verdict count = .error .closed
      ↔ exceeds limit count = true) ∧
    ((limitedWriter limit flushFails).verdict count = .error .flushFailed
      ↔ exceeds limit count = false ∧ flushFails = true) ∧
    ((limitedWriter limit flushFails).verdict count = .ok ()
      ↔ exceeds limit count = false ∧ flushFails = false) := by
  unfold Writer.verdict limitedWriter
  cases hexceeds : exceeds limit count <;> cases flushFails <;> simp

/--
**A sink with a limit, delivery by delivery.**

After each delivery the writer holds the first bytes of all records so far, and each of them is
to its reader the record of its greeting.  The delivery fails for want of room exactly if those
records go beyond the limit, otherwise its flush decides.  What the writer holds only ever grows
at its end, and from the first delivery that found no room on it stays as it is.
-/
theorem deliverAll_limited (format : Format) (limit : Option Nat) (flushFails : Bool)
    (greetings : List String) :
    let steps := deliverAll format (limitedWriter limit flushFails) greetings
    steps.length = greetings.length ∧
    (∀ greeting, format.IsRecord greeting (format.record greeting)) ∧
    ∀ (k : Nat) (hk : k < steps.length),
      let stream := records format (greetings.take (k + 1))
      steps[k].1.written = firstBytes limit stream ∧
      (steps[k].2 = .error .closed ↔ exceeds limit stream.length = true) ∧
      (steps[k].2 = .error .flushFailed ↔
        exceeds limit stream.length = false ∧ flushFails = true) ∧
      (steps[k].2 = .ok () ↔ exceeds limit stream.length = false ∧ flushFails = false) ∧
      ∀ (j : Nat) (hj : j < steps.length), k ≤ j →
        steps[k].1.written <+: steps[j].1.written ∧
        (steps[k].2 = .error .closed → steps[j].1.written = steps[k].1.written) := by
  intro steps
  have hlength : steps.length = greetings.length := deliverAll_length ..
  have hstep : ∀ (k : Nat) (hk : k < steps.length), steps[k] =
      ((limitedWriter limit flushFails).filled (records format (greetings.take (k + 1))),
        (limitedWriter limit flushFails).verdict
          (records format (greetings.take (k + 1))).length) := by
    intro k hk
    have hfilled := deliverAll_filled format (limitedWriter limit flushFails) [] greetings k
      (hlength ▸ hk)
    rw [limitedWriter_filled, List.nil_append] at hfilled
    exact Option.some.inj ((List.getElem?_eq_getElem hk).symm.trans hfilled)
  refine ⟨hlength, isRecord_record format, fun k hk => ?_⟩
  obtain ⟨hclosed, hflush, hok⟩ := limitedWriter_verdict limit flushFails
    (records format (greetings.take (k + 1))).length
  rw [hstep k hk]
  refine ⟨rfl, hclosed, hflush, hok, fun j hj hkj => ?_⟩
  -- The records up to a later delivery begin with those up to this one.
  have hlater : greetings.take (j + 1)
      = greetings.take (k + 1) ++ (greetings.take (j + 1)).drop (k + 1) := by
    have htake := List.take_append_drop (k + 1) (greetings.take (j + 1))
    rwa [List.take_take, Nat.min_eq_left (by omega), eq_comm] at htake
  rw [hstep j hj, hlater, records_append]
  exact ⟨firstBytes_grows .., fun hfull =>
    firstBytes_append_of_exceeds _ (hclosed.mp hfull)⟩

/-- A limit inside the second record.  As text the first delivery fails in its flush, the second
for want of room with the beginning of its record taken, and the third adds nothing.  As JSON the
first delivery succeeds, and what it wrote is one line that means its greeting. -/
theorem deliverAll_limited_inside_record :
    let steps := deliverAll .text (limitedWriter (some 9) true) ["Hi Ada", "Hi Bob", "Hi Cy"]
    let events := deliverAll .json (limitedWriter (some 50) false) ["Hi \"A\"", "Hi Bob"]
    (∃ (_ : 0 < steps.length) (_ : 1 < steps.length) (_ : 2 < steps.length),
      steps[0].1.written = bytesOf "Hi Ada\n" ∧ steps[0].2 = .error .flushFailed ∧
      steps[1].1.written = bytesOf "Hi Ada\nHi" ∧ steps[1].2 = .error .closed ∧
      steps[2].1.written = steps[1].1.written) ∧
    ∃ (_ : 0 < events.length) (_ : 1 < events.length) (line : Bytes),
      line = bytesOf "\x7b\"event\":\"greeting\",\"message\":\"Hi \\\"A\\\"\"\x7d" ∧
      readLine? line = some (.object [
        ("event", .string "greeting"), ("message", .string "Hi \"A\"")]) ∧
      events[0].1.written = line ++ [lineFeed] ∧ events[0].2 = .ok () ∧
      events[1].1.written = line ++ [lineFeed] ++ bytesOf "\x7b\"event\"" ∧
      events[1].2 = .error .closed := by
  intro steps events
  have hlimited := deliverAll_limited .text (some 9) true ["Hi Ada", "Hi Bob", "Hi Cy"]
  obtain ⟨hwritten₀, -, hflush, -, -⟩ := hlimited.2.2 0 (by decide)
  obtain ⟨hwritten₁, hclosed, -, -, hlater⟩ := hlimited.2.2 1 (by decide)
  have hfull := hclosed.mpr (by decide)
  obtain ⟨-, hrecord, hevents⟩ := deliverAll_limited .json (some 50) false ["Hi \"A\"", "Hi Bob"]
  obtain ⟨heventWritten₀, -, -, hok, -⟩ := hevents 0 (by decide)
  obtain ⟨heventWritten₁, heventClosed, -, -, -⟩ := hevents 1 (by decide)
  obtain ⟨line, hline, -, hbytes, hread⟩ := hrecord "Hi \"A\""
  have hsame : line = bytesOf "\x7b\"event\":\"greeting\",\"message\":\"Hi \\\"A\\\"\"\x7d" := by
    rw [hbytes]
    decide +kernel
  refine ⟨⟨by decide, by decide, by decide, ?_, hflush.mpr (by decide), ?_, hfull,
    (hlater 2 (by decide) (by decide)).2 hfull⟩, by decide +kernel, by decide +kernel, line, hsame,
    hread, ?_, hok.mpr (by decide +kernel), ?_, heventClosed.mpr (by decide +kernel)⟩
  · rw [hwritten₀]
    decide
  · rw [hwritten₁]
    decide
  · rw [heventWritten₀, hsame]
    decide +kernel
  · rw [heventWritten₁, hsame]
    decide +kernel

end Salutation
