/-
Readers that have read something.

Every reader gives a result or a refusal.  What follows from a result is said once for the
two ways in which readers are put together: one after the other, and a character in front of
what another one has read.  A line ending is the one thing that all readers look for.
-/
import Salutation.Toml.Filler

namespace Salutation.Toml

/-- A reader of two parts has read both. -/
theorem bind_eq_ok {ε α β : Type} {first : Except ε α} {second : α → Except ε β} {result : β} :
    (first >>= second) = .ok result ↔ ∃ a, first = .ok a ∧ second a = .ok result := by
  cases first <;> simp [bind, Except.bind]

theorem ok_of_mem_toOption {ε α : Type} {result : Except ε α} {a : α}
    (h : a ∈ result.toOption) : result = .ok a := by
  cases result with
  | error => cases h
  | ok b =>
      cases h
      rfl

@[simp] theorem push_ok (c : Char) (text rest : List Char) :
    push c (.ok (text, rest)) = .ok (c :: text, rest) := rfl

theorem push_eq_ok {c : Char} {result : Except Refusal (List Char × List Char)}
    {text rest : List Char} (h : push c result = .ok (text, rest)) :
    ∃ more, result = .ok (more, rest) ∧ text = c :: more := by
  unfold push at h
  split at h
  case h_1 more left =>
    cases h
    exact ⟨more, rfl, rfl⟩
  case h_2 => cases h

/-- A line ending is a line feed, perhaps behind a carriage return. -/
theorem newline?_cases {text rest : List Char} (h : newline? text = some rest) :
    text = '\n' :: rest ∨ text = '\r' :: '\n' :: rest := by
  unfold newline? at h
  split at h
  · cases h
    exact Or.inl rfl
  · cases h
    exact Or.inr rfl
  · cases h

end Salutation.Toml
