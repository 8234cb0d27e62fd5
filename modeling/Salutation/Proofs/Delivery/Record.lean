/-
What the record of a greeting is to whoever reads it.

As text it is the greeting and a line feed.  As JSON it is a line and a line feed.  No byte of
the line is below the space, so a recipient who cuts at line feeds gets the line whole; it is
text again, and means the event of the greeting.  What is read is said apart from what is
written: `Format.IsRecord` speaks of bytes and of their meaning only, and the record that is
written is one.
-/
import Salutation.Delivery.Record
import Salutation.Proofs.Json.Reader
import Salutation.Proofs.Text.Utf8

namespace Salutation

/-- The byte that ends a record. -/
def lineFeed : UInt8 := 0x0A

/-- The value that a line of bytes means. -/
def readLine? (line : Bytes) : Option Json.Value := (Utf8.decode? line).bind Json.read?

/-- The record of a greeting, as it is read.  As text it is the greeting and a line feed; as JSON
it is one line with an event on it, whose message is the greeting, and a line feed. -/
def Format.IsRecord (format : Format) (greeting : String) (record : Bytes) : Prop :=
  match format with
  | .text => record = bytesOf (greeting ++ "\n")
  | .json => ∃ line, record = line ++ [lineFeed] ∧ lineFeed ∉ line ∧
      line = Utf8.encode ("\x7b\"event\":\"greeting\",\"message\":".toList ++
        (Json.writeString greeting.toList ++ ['\x7d'])) ∧
      readLine? line = some (.object [("event", .string "greeting"), ("message", .string greeting)])

/-! ### The pieces of a record -/

/-- The pieces of a record are the record, cut up. -/
theorem flatten_pieces (format : Format) (greeting : String) :
    (format.pieces greeting).flatten = format.record greeting := by
  have hline : (format.fragments greeting).flatten = format.line greeting := by
    cases format with
    | text => simp [Format.fragments, Format.line]
    | json => exact Json.flatten_fragments (greetingEvent greeting) 0
  unfold Format.pieces Format.record
  rw [← Utf8.encode_flatten, List.flatten_append, hline]
  simp

theorem record_ne_nil (format : Format) (greeting : String) : format.record greeting ≠ [] := by
  unfold Format.record
  rw [Utf8.encode_append]
  exact List.append_ne_nil_of_right_ne_nil _ (by decide)

/-! ### A record as text -/

/-- As text the record of a greeting is the greeting and a line feed. -/
theorem record_text (greeting : String) :
    Format.text.record greeting = bytesOf (greeting ++ "\n") := by
  simp [Format.record, Format.line, bytesOf]

/-! ### A record as JSON

The marks and the names around the greeting are the same in every event, and the greeting between
them is escaped.  Escaping leaves no control character in it, and beyond ASCII all bytes are 0x80
or more, so the line holds no line feed whatever the greeting holds.
-/

/-- The line of an event in bytes. -/
def eventLine (greeting : String) : Bytes := Utf8.encode (Format.json.line greeting)

theorem record_json (greeting : String) :
    Format.json.record greeting = eventLine greeting ++ [lineFeed] :=
  Utf8.encode_append _ _

/-- Nothing stands between the marks of an event, and its names are the same in every one. -/
theorem line_json (greeting : String) :
    Format.json.line greeting = "\x7b\"event\":\"greeting\",\"message\":".toList ++
      (Json.writeString greeting.toList ++ ['\x7d']) := by
  simp [Format.line, greetingEvent, Json.compact, Json.write, Json.writeMembers, Json.writeString,
    Json.escape]

/-- Nothing below the space stands in a line. -/
theorem space_le_of_mem_eventLine {greeting : String} {b : UInt8}
    (hb : b ∈ eventLine greeting) : 0x20 ≤ b := by
  by_contra hlow
  have hlt : b.toNat < 0x20 := UInt8.lt_iff_toNat_lt.mp (UInt8.not_le.mp hlow)
  obtain ⟨c, hc, hcb⟩ := Utf8.mem_encode_ascii hb (by omega)
  have hclear : 0x20 ≤ c.toNat := Json.isClear_write (greetingEvent greeting) 0 c hc
  omega

theorem lineFeed_not_mem_eventLine (greeting : String) : lineFeed ∉ eventLine greeting :=
  fun hmem => absurd (space_le_of_mem_eventLine hmem) (by decide)

theorem readLine?_eventLine (greeting : String) :
    readLine? (eventLine greeting) = some (greetingEvent greeting) := by
  unfold readLine? eventLine
  rw [Utf8.decode?_encode, Option.bind_some]
  exact Json.read?_compact (greetingEvent greeting)

/-- **What is written for a greeting is its record**, in either format. -/
theorem isRecord_record (format : Format) (greeting : String) :
    format.IsRecord greeting (format.record greeting) := by
  cases format with
  | text => exact record_text greeting
  | json =>
      exact ⟨eventLine greeting, record_json greeting, lineFeed_not_mem_eventLine greeting,
        congrArg Utf8.encode (line_json greeting), readLine?_eventLine greeting⟩

end Salutation
