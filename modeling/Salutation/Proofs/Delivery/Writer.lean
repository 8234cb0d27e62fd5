/-
What a writer holds depends on what it was given, not on how it was cut into writes.

A writer takes bytes until it is full, so after any number of writes it holds the first
bytes of all of them together, as many as its limit allows.  A write fails exactly when
those bytes go beyond the limit, unless the write is empty, and a failed write has already
put the writer where it would be after everything that was still to come.  That is why
`writeAll` may stop there: `filled_writeAll` says that a record comes out the same in one
write and in a hundred, wherever the limit falls.
-/
import Salutation.Delivery.Writer

namespace Salutation

/-- As much of a stream as a limit allows. -/
def firstBytes (limit : Option Nat) (stream : Bytes) : Bytes :=
  match limit with
  | none => stream
  | some room => stream.take room

/-- Whether a number of bytes goes beyond a limit. -/
def exceeds (limit : Option Nat) (count : Nat) : Bool := limit.any (· < count)

@[simp] theorem firstBytes_none (stream : Bytes) : firstBytes none stream = stream := rfl

@[simp] theorem firstBytes_some (room : Nat) (stream : Bytes) :
    firstBytes (some room) stream = stream.take room := rfl

@[simp] theorem firstBytes_nil (limit : Option Nat) : firstBytes limit [] = [] := by
  cases limit <;> simp

@[simp] theorem exceeds_none (count : Nat) : exceeds none count = false := rfl

@[simp] theorem exceeds_some (room count : Nat) :
    exceeds (some room) count = decide (room < count) := rfl

theorem exceeds_mono {limit : Option Nat} {count more : Nat} (hle : count ≤ more)
    (h : exceeds limit count = true) : exceeds limit more = true := by
  cases limit with
  | none => simp at h
  | some room =>
      simp only [exceeds_some, decide_eq_true_eq] at h ⊢
      omega

/-- Beyond the limit nothing is added any more. -/
theorem firstBytes_append_of_exceeds {limit : Option Nat} {stream : Bytes} (more : Bytes)
    (h : exceeds limit stream.length = true) :
    firstBytes limit (stream ++ more) = firstBytes limit stream := by
  cases limit with
  | none => simp at h
  | some room =>
      simp only [exceeds_some, decide_eq_true_eq] at h
      exact List.take_append_of_le_length (by omega)

/-- What is taken of a stream is taken of everything that begins with it. -/
theorem firstBytes_grows (limit : Option Nat) (stream more : Bytes) :
    firstBytes limit stream <+: firstBytes limit (stream ++ more) := by
  cases limit with
  | none => exact List.prefix_append stream more
  | some room =>
      simp only [firstBytes_some, List.take_append]
      exact List.prefix_append _ _

namespace Writer

/-- A writer after a stream, all of whose bytes were offered to it. -/
def filled (writer : Writer) (stream : Bytes) : Writer :=
  { writer with written := firstBytes writer.limit stream }

@[simp] theorem filled_written (writer : Writer) (stream : Bytes) :
    (writer.filled stream).written = firstBytes writer.limit stream := rfl

@[simp] theorem filled_flushError (writer : Writer) (stream : Bytes) :
    (writer.filled stream).flushError = writer.flushError := rfl

/-- A writer that holds nothing has been offered nothing. -/
theorem filled_nil {writer : Writer} (h : writer.written = []) : writer.filled [] = writer := by
  unfold filled
  rw [firstBytes_nil, ← h]

/-! ### One write -/

theorem filled_taken (writer : Writer) (stream bytes : Bytes) :
    firstBytes writer.limit stream ++ (writer.filled stream).taken bytes
      = firstBytes writer.limit (stream ++ bytes) := by
  unfold taken filled
  cases hlimit : writer.limit with
  | none => simp
  | some room =>
      have hroom : room - min room stream.length = room - stream.length := by omega
      simp only [firstBytes_some, List.length_take, List.take_append, hroom]

/-- A write is taken whole exactly if it is empty or ends within the limit. -/
theorem filled_taken_whole (writer : Writer) (stream bytes : Bytes) :
    ((writer.filled stream).taken bytes).length = bytes.length
      ↔ bytes = [] ∨ exceeds writer.limit (stream ++ bytes).length = false := by
  unfold taken filled
  cases hlimit : writer.limit with
  | none => simp
  | some room =>
      simp only [firstBytes_some, List.length_take, List.length_append, exceeds_some,
        decide_eq_false_iff_not, ← List.length_eq_zero_iff]
      omega

theorem filled_write (writer : Writer) (stream bytes : Bytes) :
    (writer.filled stream).write bytes = (writer.filled (stream ++ bytes),
      if bytes = [] ∨ exceeds writer.limit (stream ++ bytes).length = false then .ok ()
      else .error writer.fullError) := by
  unfold write
  simp only [filled_taken_whole, filled_written, filled_taken]
  rfl

/-! ### Any number of writes

`filled` speaks of everything that was offered, and not of what was taken.  So the induction over
the writes has nothing to do with where the limit falls: behind a write that failed the writer is
already the one that has been offered all of them.
-/

/-- **Writes in a row come to one write of everything.** -/
theorem filled_writeAll (writer : Writer) (stream : Bytes) (pieces : List Bytes) :
    (writer.filled stream).writeAll pieces = (writer.filled (stream ++ pieces.flatten),
      if pieces.flatten = [] ∨ exceeds writer.limit (stream ++ pieces.flatten).length = false
      then .ok () else .error writer.fullError) := by
  induction pieces generalizing stream with
  | nil => simp [writeAll]
  | cons piece more ih =>
      unfold writeAll
      rw [filled_write, List.flatten_cons]
      by_cases hfits : piece = [] ∨ exceeds writer.limit (stream ++ piece).length = false
      · -- The first write goes through, and the rest is given to the writer after it.
        rw [if_pos hfits]
        show (writer.filled (stream ++ piece)).writeAll more = _
        rw [ih (stream ++ piece), List.append_assoc]
        congr 2
        rcases hfits with hempty | hfits
        · simp [hempty]
        · by_cases hmore : more.flatten = []
          · rw [hmore, List.append_nil, hfits]
            simp
          · simp [hmore]
      · -- The first write fails, and the writer is as full as it will ever be.
        rw [if_neg hfits]
        simp only [not_or, Bool.not_eq_false] at hfits
        obtain ⟨hne, hexceeds⟩ := hfits
        have hall : exceeds writer.limit (stream ++ (piece ++ more.flatten)).length = true :=
          exceeds_mono (by simp) hexceeds
        have hfull : writer.filled (stream ++ (piece ++ more.flatten))
            = writer.filled (stream ++ piece) := by
          unfold filled
          rw [← List.append_assoc, firstBytes_append_of_exceeds _ hexceeds]
        have hneither : ¬(piece ++ more.flatten = [] ∨
            exceeds writer.limit (stream ++ (piece ++ more.flatten)).length = false) := by
          rw [hall]
          simp [hne]
        rw [hfull, if_neg hneither]

end Writer

end Salutation
