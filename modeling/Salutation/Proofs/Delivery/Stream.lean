/-
What a recipient makes of a stream of events.

Nothing is lost on the way from a list of greetings to the bytes of a JSON sink.  A record is a
line without line feeds and one behind it, so the line feeds of the stream are exactly the ends
of the records and cutting there gives the lines back.  Each line is text, and means the event of
its greeting.  So the greetings can be read off the stream, and two lists of greetings with
the same stream are the same.
-/
import Salutation.Proofs.Delivery.Deliver

namespace Salutation

/-- What a sink has written when all of some greetings are delivered. -/
def writtenFor (format : Format) (writer : Writer) (greetings : List String) : Bytes :=
  match (deliverAll format writer greetings).getLast? with
  | some step => step.1.written
  | none => writer.written

/-- Without a limit, all records are written. -/
theorem writtenFor_unlimited (format : Format) (greetings : List String) :
    writtenFor format {} greetings = records format greetings := by
  unfold writtenFor
  rw [List.getLast?_eq_getElem?, deliverAll_length]
  cases greetings with
  | nil => rfl
  | cons greeting more =>
      have hlast := deliverAll_filled format {} [] (greeting :: more) more.length (by simp)
      have hall : (greeting :: more).take (more.length + 1) = greeting :: more :=
        List.take_of_length_le (Nat.le_refl _)
      rw [Writer.filled_nil rfl, List.nil_append, hall] at hlast
      rw [List.length_cons, Nat.add_sub_cancel, hlast]
      rfl

/-! ### The lines of a stream -/

/-- Cutting a stream at its line feeds gives the lines, and nothing behind the last of them. -/
theorem splitOn_records (greetings : List String) :
    (records .json greetings).splitOn lineFeed = greetings.map eventLine ++ [[]] := by
  induction greetings with
  | nil => rfl
  | cons greeting more ih =>
      rw [records_cons, record_json, List.append_assoc, List.singleton_append,
        List.splitOn_append_cons_self_of_not_mem (lineFeed_not_mem_eventLine greeting), ih]
      rfl

theorem decode?_records (format : Format) (greetings : List String) :
    Utf8.decode? (records format greetings)
      = some (greetings.flatMap fun greeting => format.line greeting ++ ['\n']) := by
  have hencode : records format greetings
      = Utf8.encode (greetings.flatMap fun greeting => format.line greeting ++ ['\n']) := by
    induction greetings with
    | nil => rfl
    | cons greeting more ih => rw [records_cons, ih, List.flatMap_cons, Utf8.encode_append]; rfl
  rw [hencode, Utf8.decode?_encode]

/-! ### What the lines mean

Every step back to the greetings is a function of what is there: cutting at the line feeds, reading
a line, looking up the message.  Therefore nothing more is needed for the stream to determine them.
-/

theorem map_readLine? (greetings : List String) :
    (greetings.map eventLine).map readLine? =
      greetings.map fun greeting => some (greetingEvent greeting) := by
  simp only [List.map_map, Function.comp_def, readLine?_eventLine]

/-- A list of greetings is determined by the bytes of its events. -/
theorem records_json_injective : Function.Injective (records .json) := by
  intro a b h
  have hsplit : a.map eventLine ++ [[]] = b.map eventLine ++ [[]] := by
    rw [← splitOn_records a, ← splitOn_records b, h]
  have hevents := congrArg (List.map readLine?) (List.append_cancel_right hsplit)
  rw [map_readLine?, map_readLine?] at hevents
  refine List.map_injective_iff.mpr ?_ hevents
  intro s t hst
  simpa [greetingEvent] using hst

/--
**The greetings can be read off the stream of their events.**

What a JSON sink writes is UTF-8.  It is cut at its line feeds into one line for each
greeting, with nothing behind the last line feed and no byte below the space in any line, and
each line means an object with two members: the kind of event, and the greeting exactly as it
was.  So the stream determines the greetings.
-/
theorem json_stream_decodes :
    (∀ greetings : List String, ∃ lines : List Bytes,
      (Utf8.decode? (writtenFor .json {} greetings)).isSome = true ∧
      (writtenFor .json {} greetings).splitOn lineFeed = lines ++ [[]] ∧
      lines.length = greetings.length ∧
      lines.all (fun line => line.all (0x20 ≤ ·)) = true ∧
      lines.map readLine? = greetings.map fun greeting =>
        some (.object [("event", .string "greeting"), ("message", .string greeting)])) ∧
    Function.Injective (writtenFor .json {}) := by
  have hwritten : writtenFor .json {} = records .json := funext (writtenFor_unlimited .json)
  rw [hwritten]
  refine ⟨fun greetings => ⟨greetings.map eventLine, ?_, splitOn_records greetings, ?_, ?_,
    map_readLine? greetings⟩, records_json_injective⟩
  · rw [decode?_records]
    rfl
  · exact List.length_map _
  · simp only [List.all_map, List.all_eq_true, Function.comp_apply, decide_eq_true_eq]
    exact fun greeting _ b hb => space_le_of_mem_eventLine hb

end Salutation
