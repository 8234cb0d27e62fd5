/-
One line in front of others.

The lines of a text are those of its parts, as long as it is taken apart behind a line feed:
the line before it loses one carriage return at its end, and the lines after it are what
they are by themselves.
-/
import Mathlib.Data.List.Basic
import Salutation.Text.Lines

namespace Salutation.Text

/-- A line without the carriage return that belongs to its ending. -/
def withoutReturn (line : List Char) : List Char :=
  if line.getLast? = some '\r' then line.dropLast else line

theorem withoutReturn_of_not_mem {line : List Char} (h : '\r' ∉ line) :
    withoutReturn line = line := by
  unfold withoutReturn
  rw [if_neg fun hlast => h (List.mem_of_getLast? hlast)]

@[simp] theorem withoutReturn_concat (line : List Char) : withoutReturn (line ++ ['\r']) = line := by
  simp [withoutReturn]

theorem withoutReturn_prefix (line : List Char) : withoutReturn line <+: line := by
  unfold withoutReturn
  split
  · exact List.dropLast_prefix line
  · exact List.prefix_rfl

/-- What stands in front of a line loses nothing. -/
theorem withoutReturn_cons (c : Char) {line : List Char} (h : line ≠ [] ∨ c ≠ '\r') :
    withoutReturn (c :: line) = c :: withoutReturn line := by
  cases line with
  | nil => simp [withoutReturn, h.resolve_left (fun hne => hne rfl)]
  | cons d more =>
      unfold withoutReturn
      rw [List.getLast?_cons_cons]
      split <;> rfl

/-- A line that does not end in the front part loses nothing of it. -/
theorem withoutReturn_append (front : List Char) {line : List Char} (h : line ≠ []) :
    withoutReturn (front ++ line) = front ++ withoutReturn line := by
  induction front with
  | nil => rfl
  | cons c front ih =>
      rw [List.cons_append, withoutReturn_cons c (Or.inl (by simp [h])), ih, List.cons_append]

theorem lines_cons {c : Char} {text : List Char} (hc : c ≠ '\n')
    (hpair : c = '\r' → text.head? ≠ some '\n') :
    lines (c :: text) = match lines text with
      | [] => [[c]]
      | line :: more => (c :: line) :: more := by
  conv_lhs => unfold lines
  split
  case h_1 heq => cases heq
  case h_2 heq =>
    cases heq
    exact absurd rfl hc
  case h_3 heq =>
    cases heq
    exact absurd rfl (hpair rfl)
  case h_4 heq =>
    cases heq
    rfl

/-- **The first line of a text ends at its first line feed**, and the others follow. -/
theorem lines_append {line : List Char} (hline : '\n' ∉ line) (rest : List Char) :
    lines (line ++ '\n' :: rest) = withoutReturn line :: lines rest := by
  induction line with
  | nil => rfl
  | cons c line ih =>
      have hc : c ≠ '\n' := (List.ne_of_not_mem_cons hline).symm
      have hmore : '\n' ∉ line := List.not_mem_of_not_mem_cons hline
      by_cases hreturn : line = [] ∧ c = '\r'
      · obtain ⟨rfl, rfl⟩ := hreturn
        rfl
      · have hpair : c = '\r' → (line ++ '\n' :: rest).head? ≠ some '\n' := by
          rintro rfl hhead
          cases line with
          | nil => exact hreturn ⟨rfl, rfl⟩
          | cons d more =>
              rw [List.cons_append, List.head?_cons, Option.some.injEq] at hhead
              exact hmore (hhead ▸ List.mem_cons_self)
        have hkeep : line ≠ [] ∨ c ≠ '\r' := by
          by_contra h
          rw [not_or, not_not, not_not] at h
          exact hreturn h
        rw [List.cons_append, lines_cons hc hpair, ih hmore, withoutReturn_cons c hkeep]

/-- Without a line feed a text is one line, or none if there is nothing in it. -/
theorem lines_of_line {line : List Char} (hline : '\n' ∉ line) :
    lines line = if line = [] then [] else [line] := by
  induction line with
  | nil => rfl
  | cons c line ih =>
      have hc : c ≠ '\n' := (List.ne_of_not_mem_cons hline).symm
      have hmore : '\n' ∉ line := List.not_mem_of_not_mem_cons hline
      have hpair : c = '\r' → line.head? ≠ some '\n' :=
        fun _ hhead => hmore (List.mem_of_head? hhead)
      rw [lines_cons hc hpair, ih hmore, if_neg (List.cons_ne_nil c line)]
      cases line <;> rfl

/-- A text begins with a line, and `next` is what follows its ending. -/
def StartsWith (text line next : List Char) : Prop :=
  '\n' ∉ line ∧ (text = line ++ '\n' :: next ∨ text = line ∧ next = [])

theorem StartsWith.append {front text line next : List Char} (h : StartsWith text line next)
    (hfront : '\n' ∉ front) : StartsWith (front ++ text) (front ++ line) next := by
  obtain ⟨hline, rfl | ⟨rfl, rfl⟩⟩ := h
  · exact ⟨by simp [hfront, hline], Or.inl (by simp)⟩
  · exact ⟨by simp [hfront, hline], Or.inr ⟨rfl, rfl⟩⟩

theorem StartsWith.isPrefix {text line next : List Char} (h : StartsWith text line next) :
    line <+: text := by
  obtain ⟨-, rfl | ⟨rfl, -⟩⟩ := h
  · exact List.prefix_append _ _
  · exact List.prefix_rfl

theorem StartsWith.isSuffix {text line next : List Char} (h : StartsWith text line next) :
    next <:+ text := by
  obtain ⟨-, rfl | ⟨-, rfl⟩⟩ := h
  · exact (List.suffix_cons _ next).trans (List.suffix_append line _)
  · exact List.nil_suffix

/-- Every text begins with a line. -/
theorem exists_startsWith (text : List Char) : ∃ line next, StartsWith text line next := by
  by_cases hmem : '\n' ∈ text
  · obtain ⟨line, next, rfl, hline⟩ := List.eq_append_cons_of_mem hmem
    exact ⟨line, next, hline, Or.inl rfl⟩
  · exact ⟨text, [], hmem, Or.inr ⟨rfl, rfl⟩⟩

/-- What holds of any line by itself, and of any line in front of a text for which it holds, holds
of every text. -/
@[elab_as_elim]
theorem induction_on_lines {motive : List Char → Prop} (text : List Char)
    (last : ∀ line, '\n' ∉ line → motive line)
    (more : ∀ line rest, '\n' ∉ line → motive rest → motive (line ++ '\n' :: rest)) :
    motive text := by
  induction hlength : text.length using Nat.strongRecOn generalizing text with
  | _ length ih =>
      obtain ⟨line, next, hline, rfl | ⟨rfl, -⟩⟩ := exists_startsWith text
      · refine more line next hline (ih next.length ?_ next rfl)
        rw [← hlength, List.length_append, List.length_cons]
        omega
      · exact last text hline

/-- The ending of a line is one line feed. -/
theorem StartsWith.count {text line next : List Char} (h : StartsWith text line next)
    (hnext : next ≠ []) : text.count '\n' = next.count '\n' + 1 := by
  obtain ⟨hline, rfl | ⟨-, rfl⟩⟩ := h
  · simp [List.count_eq_zero.mpr hline]
  · exact absurd rfl hnext

/-- The line that a text starts with is the first of its lines.  Only a carriage return at its
end may be missing. -/
theorem StartsWith.lines {text next front more : List Char} {c : Char}
    (h : StartsWith text (front ++ c :: more) next) (hc : c ≠ '\r') :
    ∃ left, left <+: more ∧ Text.lines text = (front ++ c :: left) :: Text.lines next := by
  obtain ⟨hline, rfl | ⟨rfl, rfl⟩⟩ := h
  · refine ⟨withoutReturn more, withoutReturn_prefix more, ?_⟩
    rw [lines_append hline, withoutReturn_append front (List.cons_ne_nil c more),
      withoutReturn_cons c (Or.inr hc)]
  · refine ⟨more, List.prefix_rfl, ?_⟩
    rw [lines_of_line hline, if_neg (by simp)]
    rfl

/-- The lines behind the first are those of what follows it. -/
theorem StartsWith.drop_lines {text line next : List Char} (h : StartsWith text line next) :
    (Text.lines text).drop 1 = Text.lines next := by
  obtain ⟨hline, rfl | ⟨rfl, rfl⟩⟩ := h
  · rw [lines_append hline]
    rfl
  · rw [lines_of_line hline]
    split <;> rfl

/-- A text that is not empty has a first line. -/
theorem StartsWith.exists_line {text line next : List Char} (h : StartsWith text line next)
    (htext : text ≠ []) :
    ∃ left, left <+: line ∧ Text.lines text = left :: Text.lines next := by
  obtain ⟨hline, rfl | ⟨rfl, rfl⟩⟩ := h
  · exact ⟨withoutReturn line, withoutReturn_prefix line, lines_append hline next⟩
  · refine ⟨text, List.prefix_rfl, ?_⟩
    rw [lines_of_line hline, if_neg htext]
    rfl

/-- Up to the end of the line behind which `next` starts there are as many lines as line feeds;
one line may be missing at the end of a text. -/
theorem StartsWith.lines_through {after line next : List Char} (h : StartsWith after line next)
    (written : List Char) : ∃ through, Text.lines (written ++ after) = through ++ Text.lines next ∧
      through.length ≤ written.count '\n' + 1 ∧
      (next ≠ [] → through.length = written.count '\n' + 1) := by
  induction hfeeds : written.count '\n' generalizing written with
  | zero =>
      obtain ⟨hline, hafter⟩ := h.append (List.count_eq_zero.mp hfeeds)
      rcases hafter with hafter | ⟨hafter, rfl⟩
      · exact ⟨[withoutReturn (written ++ line)], by rw [hafter, lines_append hline]; rfl,
          Nat.le_refl _, fun _ => rfl⟩
      · refine ⟨Text.lines (written ++ after), (List.append_nil _).symm, ?_, fun h => absurd rfl h⟩
        rw [hafter, lines_of_line hline]
        split <;> simp
  | succ n ih =>
      have hmem : '\n' ∈ written := List.count_pos_iff.mp (by omega)
      obtain ⟨front, back, rfl, hfront⟩ := List.eq_append_cons_of_mem hmem
      have hback : back.count '\n' = n := by
        simpa [List.count_eq_zero.mpr hfront] using hfeeds
      obtain ⟨through, hlines, hshort, hlength⟩ := ih back hback
      refine ⟨withoutReturn front :: through, ?_, ?_, fun hnext => ?_⟩
      · rw [List.append_assoc, List.cons_append, lines_append hfront, hlines, List.cons_append]
      · rw [List.length_cons]
        omega
      · rw [List.length_cons, hlength hnext]

/-- Line feeds within what is written make lines of their own between the first line and what
follows the last. -/
theorem StartsWith.exists_inner {after line next : List Char} (h : StartsWith after line next)
    (written : List Char) : ∃ first rest, StartsWith (written ++ after) first rest ∧
      Text.lines rest = (Text.lines rest).take (written.count '\n') ++ Text.lines next ∧
      (next ≠ [] → ((Text.lines rest).take (written.count '\n')).length = written.count '\n') := by
  by_cases hmem : '\n' ∈ written
  · obtain ⟨front, back, rfl, hfront⟩ := List.eq_append_cons_of_mem hmem
    obtain ⟨through, hlines, hshort, hlength⟩ := h.lines_through back
    have hcount : (front ++ '\n' :: back).count '\n' = back.count '\n' + 1 := by
      simp [List.count_eq_zero.mpr hfront]
    have htake : (Text.lines (back ++ after)).take (back.count '\n' + 1) = through := by
      rw [hlines]
      by_cases hnext : next = []
      · rw [hnext]
        exact (congrArg _ (List.append_nil _)).trans (List.take_of_length_le hshort)
      · rw [← hlength hnext, List.take_left]
    refine ⟨front, back ++ after, ⟨hfront, Or.inl (by simp)⟩, ?_, ?_⟩
    · rw [hcount, htake, hlines]
    · rw [hcount, htake]
      exact hlength
  · have hcount : written.count '\n' = 0 := List.count_eq_zero.mpr hmem
    exact ⟨written ++ line, next, h.append hmem, by simp [hcount], fun _ => by simp [hcount]⟩

end Salutation.Text
