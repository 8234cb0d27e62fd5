/-
Plain documents.

A plain document is a sequence of lines.  Each is blank, a comment, the header of a table
with a bare key, or a bare key with a string, an integer or a truth value behind it, and
each may be indented and end in a comment.  Here such a document is data: what is written,
with the proofs that it may be written there, and its text is put together from its lines.

What the reader of documents finds is read off the lines.  Every line with a header or a
key is one statement, and its mark tells where: the table that is open, the key, and the number of
the line.
-/
import Salutation.Proofs.Toml.Outline
import Salutation.Proofs.Toml.Document
import Salutation.Proofs.Toml.Scalar

namespace Salutation.Toml

/-! ### Lines -/

/-- A value on one line. -/
structure PlainValue where
  written : List Char
  content : Scalar
  reads : ∃ span, value written = .ok (.scalar span content, [])
  simple : content.isSimple = true
  oneLine : '\n' ∉ written ∧ '\r' ∉ written

/-- What stands on a line: nothing, the header of a table, or a key with a value. -/
inductive LineBody where
  | nothing
  | header (key : List Char) (hkey : IsBareKey key)
  | entry (key before after : List Char) (value : PlainValue) (hkey : IsBareKey key)
    (hbefore : ∀ c ∈ before, isSpace c = true) (hafter : ∀ c ∈ after, isSpace c = true)

namespace LineBody

/-- The text of what stands on a line. -/
def text : LineBody → List Char
  | nothing => []
  | header key _ => '[' :: (key ++ [']'])
  | entry key before after value _ _ _ => key ++ (before ++ '=' :: (after ++ value.written))

end LineBody

/-- What may stand at the end of a line: spaces, and perhaps a comment. -/
structure Margin where
  spaces : List Char
  comment? : Option (List Char)
  hspaces : ∀ c ∈ spaces, isSpace c = true
  hcomment : ∀ comment ∈ comment?, ∀ c ∈ comment, isPlain c = true

namespace Margin

/-- The text of a margin. -/
def text (margin : Margin) : List Char :=
  match margin.comment? with
  | none => margin.spaces
  | some comment => margin.spaces ++ '#' :: comment

end Margin

/-- A line of a plain document. -/
structure PlainLine where
  indent : List Char
  body : LineBody
  margin : Margin
  hindent : ∀ c ∈ indent, isSpace c = true

namespace PlainLine

/-- The text of a line, without its ending. -/
def text (line : PlainLine) : List Char := line.indent ++ (line.body.text ++ line.margin.text)

end PlainLine

/-- How a line ends. -/
inductive LineEnding where
  | feed
  | returnFeed
  deriving DecidableEq

namespace LineEnding

/-- The text of a line ending. -/
def text : LineEnding → List Char
  | feed => ['\n']
  | returnFeed => ['\r', '\n']

end LineEnding

/-- A plain document: lines with their endings, and behind the last ending one more line,
which may be empty. -/
structure PlainDocument where
  ended : List (PlainLine × LineEnding)
  last : PlainLine

namespace PlainDocument

/-- The text of lines with their endings, and of the last line. -/
def textOf : List (PlainLine × LineEnding) → PlainLine → List Char
  | [], last => last.text
  | (line, ending) :: more, last => line.text ++ (ending.text ++ textOf more last)

/-- The text of a document. -/
def text (doc : PlainDocument) : List Char := textOf doc.ended doc.last

/-- All lines of a document, in order. -/
def lines (doc : PlainDocument) : List PlainLine := doc.ended.map (·.1) ++ [doc.last]

end PlainDocument

/-! ### Marks -/

/-- Where a key stands: the table that is open, and the number of the line.  A key that opens
a table has no value. -/
structure Mark where
  table? : Option (List Char)
  key : List Char
  line : Nat
  content? : Option Scalar

namespace Mark

/-- The full path of a key. -/
def path (mark : Mark) : List String :=
  (mark.table?.map String.ofList).toList ++ [String.ofList mark.key]

end Mark

/-- The marks of lines, where `number` is that of the first line and `current?` the table that
is open. -/
def marksFrom : Nat → Option (List Char) → List PlainLine → List Mark
  | _, _, [] => []
  | number, current?, line :: more =>
    match line.body with
    | .nothing => marksFrom (number + 1) current? more
    | .header key _ => ⟨none, key, number, none⟩ :: marksFrom (number + 1) (some key) more
    | .entry key _ _ value _ _ _ =>
      ⟨current?, key, number, some value.content⟩ :: marksFrom (number + 1) current? more

/-- The marks of a document, whose lines are counted from one. -/
def PlainDocument.marks (doc : PlainDocument) : List Mark := marksFrom 1 none doc.lines

/-- The marks of lines are in the order of their numbers. -/
theorem marksFrom_increasing (number : Nat) (current? : Option (List Char))
    (lines : List PlainLine) :
    (∀ mark ∈ marksFrom number current? lines, number ≤ mark.line) ∧
      ((marksFrom number current? lines).map (·.line)).Pairwise (· < ·) := by
  induction lines generalizing number current? with
  | nil => simp [marksFrom]
  | cons line more ih =>
      have hfirst : ∀ (mark : Mark) (next? : Option (List Char)), mark.line = number →
          (∀ other ∈ mark :: marksFrom (number + 1) next? more, number ≤ other.line) ∧
            ((mark :: marksFrom (number + 1) next? more).map (·.line)).Pairwise (· < ·) := by
        rintro mark next? rfl
        obtain ⟨hlater, hpairwise⟩ := ih (mark.line + 1) next?
        refine ⟨List.forall_mem_cons.mpr ⟨le_rfl, fun other hother => ?_⟩, ?_⟩
        · exact (Nat.le_succ _).trans (hlater other hother)
        · rw [List.map_cons, List.pairwise_cons]
          refine ⟨fun n hn => ?_, hpairwise⟩
          obtain ⟨other, hother, rfl⟩ := List.mem_map.mp hn
          exact hlater other hother
      unfold marksFrom
      split
      · obtain ⟨hlater, hpairwise⟩ := ih (number + 1) current?
        exact ⟨fun mark hmark => (Nat.le_succ _).trans (hlater mark hmark), hpairwise⟩
      · exact hfirst _ _ rfl
      · exact hfirst _ _ rfl

/-! ### Reading a line -/

/-- What may stand where a line ends, and the text of the next line. -/
def EndsLine (rest next : List Char) : Prop :=
  rest = [] ∧ next = [] ∨ newline? rest = some next

section

variable {rest next : List Char} (hends : EndsLine rest next)

include hends

theorem EndsLine.cases : rest = [] ∧ next = [] ∨ rest = '\n' :: next ∨ rest = '\r' :: '\n' :: next := by
  rcases hends with hempty | hline
  · exact Or.inl hempty
  · unfold newline? at hline
    split at hline
    · cases hline
      exact Or.inr (Or.inl rfl)
    · cases hline
      exact Or.inr (Or.inr rfl)
    · cases hline

theorem EndsLine.length_le : next.length ≤ rest.length := by
  rcases hends.cases with ⟨rfl, rfl⟩ | rfl | rfl
  · exact le_rfl
  · exact Nat.le_succ _
  · exact (Nat.le_succ _).trans (Nat.le_succ _)

/-- Behind a margin a line ends. -/
theorem lineEnd_margin (margin : Margin) : lineEnd (margin.text ++ rest) = .ok next := by
  have hskip : skipSpaces (margin.text ++ rest) =
      (match margin.comment? with
        | none => rest
        | some comment => '#' :: (comment ++ rest)) := by
    unfold Margin.text
    cases margin.comment? with
    | none =>
        dsimp only
        rw [skipSpaces_append margin.hspaces]
        rcases hends.cases with ⟨rfl, -⟩ | rfl | rfl <;> rfl
    | some comment =>
        dsimp only
        rw [List.append_assoc, skipSpaces_append margin.hspaces]
        rfl
  unfold lineEnd
  rw [hskip]
  cases hcomment : margin.comment? with
  | none => rcases hends.cases with ⟨rfl, rfl⟩ | rfl | rfl <;> rfl
  | some comment =>
      have hdrop : (comment ++ rest).dropWhile isPlain = rest := by
        rw [List.dropWhile_append_of_pos (margin.hcomment comment hcomment)]
        rcases hends.cases with ⟨rfl, -⟩ | rfl | rfl <;> rfl
      simp only [hdrop]
      rcases hends.cases with ⟨rfl, rfl⟩ | rfl | rfl <;> rfl

/-- A margin stops a value. -/
theorem stopsValue_margin (margin : Margin) : StopsValue (margin.text ++ rest) := by
  intro c hc
  unfold Margin.text at hc
  cases hspaces : margin.spaces with
  | cons d more =>
      have hd := margin.hspaces d (hspaces ▸ List.mem_cons_self)
      have hcd : d = c := by
        rw [hspaces] at hc
        cases hcomment : margin.comment? <;> simpa [hcomment] using hc
      subst hcd
      simp only [isSpace, Bool.or_eq_true, decide_eq_true_eq] at hd
      rcases hd with rfl | rfl <;> decide
  | nil =>
      rw [hspaces] at hc
      cases hcomment : margin.comment? with
      | some comment =>
          rw [hcomment] at hc
          cases hc
          decide
      | none =>
          rw [hcomment] at hc
          rcases hends.cases with ⟨rfl, -⟩ | rfl | rfl <;> cases hc <;> decide

/-- A line with nothing on it is skipped. -/
theorem reads_margin (margin : Margin) {all : List Statement} (hnext : Reads next all) :
    Reads (margin.text ++ rest) all := by
  unfold Margin.text
  cases hcomment : margin.comment? with
  | none =>
      refine Reads.indent margin.hspaces ?_
      rcases hends.cases with ⟨rfl, rfl⟩ | rfl | rfl
      · exact hnext
      · exact .blank rfl hnext
      · exact .blank rfl hnext
  | some comment =>
      have hend : lineEnd ('#' :: (comment ++ rest)) = .ok next :=
        lineEnd_margin hends ⟨[], some comment, by simp, hcomment ▸ margin.hcomment⟩
      dsimp only
      rw [List.append_assoc]
      refine Reads.indent margin.hspaces (.comment rfl hend ?_ hnext)
      exact hends.length_le.trans (by simp)

/-- The header of a table is a statement. -/
theorem reads_plainHeader {key : List Char} (hkey : IsBareKey key) (margin : Margin)
    {all : List Statement} (hnext : Reads next all) :
    ∃ span keySpan, Reads ('[' :: (key ++ [']']) ++ (margin.text ++ rest))
      (.header ⟨span, ⟨[], ⟨String.ofList key, keySpan⟩⟩, false⟩ :: all) := by
  have hend := lineEnd_margin hends margin
  have hshorter : next.length ≤ (margin.text ++ rest).length :=
    hends.length_le.trans (by simp)
  obtain ⟨span, keySpan, hreads⟩ := reads_header hkey hend hshorter hnext
  exact ⟨span, keySpan, by simpa using hreads⟩

/-- A key with a value is a statement. -/
theorem reads_plainEntry {key before after : List Char} (value : PlainValue) (hkey : IsBareKey key)
    (hbefore : ∀ c ∈ before, isSpace c = true) (hafter : ∀ c ∈ after, isSpace c = true)
    (margin : Margin) {all : List Statement} (hnext : Reads next all) :
    ∃ span place, Reads (key ++ (before ++ '=' :: (after ++ value.written)) ++ (margin.text ++ rest))
      (.assign ⟨⟨[], ⟨String.ofList key, span⟩⟩, .scalar place value.content⟩ :: all) := by
  have hstop := stopsValue_margin hends margin
  obtain ⟨span, hread⟩ := value.reads
  have hvalue := value_append hstop value.simple hread
  have hskip : skipSpaces (after ++ (value.written ++ (margin.text ++ rest))) =
      value.written ++ (margin.text ++ rest) := by
    rw [skipSpaces_append hafter]
    obtain ⟨hscalar, -⟩ := scalar_of_value hread
    cases hwritten : value.written with
    | nil =>
        rw [hwritten] at hscalar
        cases hscalar
    | cons c more =>
        rw [hwritten] at hscalar
        exact skipSpaces_cons (scalar_head hscalar value.simple) _
  rw [← hskip] at hvalue
  have hend := lineEnd_margin hends margin
  have hshorter : next.length ≤ (value.written ++ (margin.text ++ rest)).length :=
    hends.length_le.trans (by simp; omega)
  obtain ⟨keySpan, hreads⟩ := reads_assignment hkey hbefore hvalue hend hshorter hnext
  exact ⟨keySpan, _, by simpa using hreads⟩

end

/-! ### Reading a document -/

/-- The statement that a mark stands for. -/
def Mark.Marks (mark : Mark) (entry : List String × Statement) : Prop :=
  entry.1 = mark.path ∧ entry.2.IsSingle ∧
    match mark.content? with
    | none => ∃ header, entry.2 = .header header
    | some content => ∃ path place, entry.2 = .assign ⟨path, .scalar place content⟩

/-- The marks of lines stand for statements, whatever number and table they start with. -/
def MarksLines (lines : List PlainLine) (all : List Statement) : Prop :=
  ∀ number current?, List.Forall₂ Mark.Marks (marksFrom number current? lines)
    (outline (current?.map String.ofList).toList all)

/-- A line is read in front of what follows it. -/
theorem reads_plainLine (line : PlainLine) {rest next : List Char} (hends : EndsLine rest next)
    {more : List PlainLine} {all : List Statement} (hnext : Reads next all)
    (hmarks : MarksLines more all) :
    ∃ longer, Reads (line.text ++ rest) longer ∧ MarksLines (line :: more) longer := by
  obtain ⟨indent, body, margin, hindent⟩ := line
  have htext : PlainLine.text ⟨indent, body, margin, hindent⟩ ++ rest =
      indent ++ (body.text ++ (margin.text ++ rest)) := by
    simp [PlainLine.text]
  rw [htext]
  cases body with
  | nothing =>
      exact ⟨all, (reads_margin hends margin hnext).indent hindent,
        fun number current? => hmarks (number + 1) current?⟩
  | header key hkey =>
      obtain ⟨span, keySpan, hreads⟩ := reads_plainHeader hends hkey margin hnext
      refine ⟨_, hreads.indent hindent, fun number current? => ?_⟩
      exact .cons ⟨rfl, ⟨rfl, rfl⟩, _, rfl⟩ (hmarks (number + 1) (some key))
  | entry key before after value hkey hbefore hafter =>
      obtain ⟨span, place, hreads⟩ :=
        reads_plainEntry hends value hkey hbefore hafter margin hnext
      refine ⟨_, hreads.indent hindent, fun number current? => ?_⟩
      exact .cons ⟨rfl, rfl, _, _, rfl⟩ (hmarks (number + 1) current?)

/-- **The statements of a plain document are those that its marks stand for**, in order. -/
theorem reads_textOf (ended : List (PlainLine × LineEnding)) (last : PlainLine) :
    ∃ all, Reads (PlainDocument.textOf ended last) all ∧
      MarksLines (ended.map (·.1) ++ [last]) all := by
  induction ended with
  | nil =>
      have hnothing : Reads [] [] := .done rfl
      have hnone : MarksLines [] [] := fun _ _ => .nil
      obtain ⟨all, hreads, hmarks⟩ := reads_plainLine last (Or.inl ⟨rfl, rfl⟩) hnothing hnone
      rw [List.append_nil] at hreads
      exact ⟨all, hreads, hmarks⟩
  | cons first more ih =>
      obtain ⟨line, ending⟩ := first
      obtain ⟨later, hlater, hmarks⟩ := ih
      have hends : EndsLine (ending.text ++ PlainDocument.textOf more last)
          (PlainDocument.textOf more last) := by
        cases ending <;> exact Or.inr rfl
      exact reads_plainLine line hends hlater hmarks

theorem Mark.Marks.isSingle {marks : List Mark} {entries : List (List String × Statement)}
    (h : List.Forall₂ Mark.Marks marks entries) : ∀ entry ∈ entries, entry.2.IsSingle := by
  induction h with
  | nil => simp
  | cons hfirst _ ih => exact List.forall_mem_cons.mpr ⟨hfirst.2.1, ih⟩

theorem Mark.Marks.map_path {marks : List Mark} {entries : List (List String × Statement)}
    (h : List.Forall₂ Mark.Marks marks entries) : entries.map (·.1) = marks.map Mark.path := by
  induction h with
  | nil => rfl
  | cons hfirst _ ih => rw [List.map_cons, List.map_cons, hfirst.1, ih]

/-! ### Characters -/

/-- The character that a byte order mark is. -/
abbrev byteOrderMark : Char := '\uFEFF'

theorem head?_cons_ne {c : Char} (hc : c ≠ byteOrderMark) (rest : List Char) :
    (c :: rest).head? ≠ some byteOrderMark := by
  simpa using hc

theorem head?_append_ne {front rest : List Char} (hfront : front.head? ≠ some byteOrderMark)
    (hrest : rest.head? ≠ some byteOrderMark) : (front ++ rest).head? ≠ some byteOrderMark := by
  cases front with
  | nil => exact hrest
  | cons c more => exact hfront

theorem head?_ne_of_all {p : Char → Bool} {text : List Char} (hp : p byteOrderMark = false)
    (htext : ∀ c ∈ text, p c = true) : text.head? ≠ some byteOrderMark :=
  fun hhead => not_mem_of_all hp htext (List.mem_of_head? hhead)

theorem PlainLine.head?_text (line : PlainLine) : line.text.head? ≠ some byteOrderMark := by
  have hspace : isSpace byteOrderMark = false := by decide
  have hbare : isBare byteOrderMark = false := by decide
  refine head?_append_ne (head?_ne_of_all hspace line.hindent) (head?_append_ne ?_ ?_)
  · cases line.body with
    | nothing => simp [LineBody.text]
    | header key hkey => exact head?_cons_ne (by decide) _
    | entry key before after value hkey hbefore hafter =>
        refine head?_append_ne (head?_ne_of_all hbare (List.all_eq_true.mp hkey.bare)) ?_
        exact head?_append_ne (head?_ne_of_all hspace hbefore) (head?_cons_ne (by decide) _)
  · unfold Margin.text
    cases line.margin.comment? with
    | none => exact head?_ne_of_all hspace line.margin.hspaces
    | some comment =>
        exact head?_append_ne (head?_ne_of_all hspace line.margin.hspaces)
          (head?_cons_ne (by decide) _)

namespace PlainDocument

/-- A plain document does not start with a byte order mark. -/
theorem head?_textOf (ended : List (PlainLine × LineEnding)) (last : PlainLine) :
    (textOf ended last).head? ≠ some byteOrderMark := by
  induction ended with
  | nil => exact last.head?_text
  | cons first more ih =>
      refine head?_append_ne first.1.head?_text (head?_append_ne ?_ ih)
      cases first.2 <;> exact head?_cons_ne (by decide) _

/-- **A plain document in which no path stands twice is read as the table of its marks.** -/
theorem document_text (doc : PlainDocument) (hdistinct : (doc.marks.map Mark.path).Nodup) :
    ∃ all, List.Forall₂ Mark.Marks doc.marks (outline [] all) ∧ (∀ s ∈ all, s.IsSingle) ∧
      document doc.text = .ok (singleTable all) := by
  obtain ⟨all, hreads, hmarks⟩ := reads_textOf doc.ended doc.last
  have hall : List.Forall₂ Mark.Marks doc.marks (outline [] all) := hmarks 1 none
  have hsingle : ∀ s ∈ all, s.IsSingle := by
    intro s hs
    rw [← map_snd_outline [] all] at hs
    obtain ⟨entry, hentry, rfl⟩ := List.mem_map.mp hs
    exact Mark.Marks.isSingle hall entry hentry
  have hnodup : ((outline [] all).map (·.1)).Nodup := by
    rwa [Mark.Marks.map_path hall]
  exact ⟨all, hall, hsingle,
    document_of_reads (head?_textOf _ _) hreads (assemble_single hsingle hnodup)⟩

end PlainDocument

end Salutation.Toml
