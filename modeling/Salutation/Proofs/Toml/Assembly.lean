/-
What the statements of a document can do to a table.

`assign_cons_cases` and its siblings say all that one step of the assembly does: an
assignment walks through its parents and adds one entry at the end, a header walks through
its parents and puts a table at the end.  What every step preserves follows case by case;
here that is that no key stands twice, which is what the refusals of duplicate keys are for.
-/
import Salutation.Proofs.Toml.Basic
import Salutation.Toml.Assembly

namespace Salutation.Toml

namespace Table

/-! ### One step of an assignment -/

variable {within : Option (List String)} {parent key : Key} {more : List Key} {value : Node}
  {table result : Table}

/-- Without parents, an assignment adds a new key at the end. -/
theorem assign_nil_cases (h : assign within [] key value table = .ok result) :
    table.get? key.name = none ∧ result = table ++ [(key, value)] := by
  unfold assign at h
  split at h
  case h_1 hnew =>
    cases h
    exact ⟨hnew, rfl⟩
  case h_2 => cases h

/-- With a parent, an assignment goes on in a new table, in one that a dotted key or a
longer header has made, or in the last table of an array. -/
theorem assign_cons_cases (h : assign within (parent :: more) key value table = .ok result) :
    (∃ inner, table.get? parent.name = none ∧ assign within more key value [] = .ok inner ∧
      result = table ++ [(parent, .table .dotted inner)]) ∨
    (∃ (origin : Origin) (old inner : Table), table.get? parent.name = some (.table origin old) ∧
      (origin = .dotted ∨ origin = .implied ∧ more ≠ []) ∧
      assign within more key value old = .ok inner ∧
      result = table.replace parent.name (.table origin inner)) ∨
    (∃ (elements : List (Span × Table)) (span : Span) (old inner : Table),
      table.get? parent.name = some (.tables elements) ∧ more ≠ [] ∧
      elements.getLast? = some (span, old) ∧ assign within more key value old = .ok inner ∧
      result = table.replace parent.name (.tables (elements.dropLast ++ [(span, inner)]))) := by
  unfold assign at h
  split at h
  case h_1 hnew =>
    split at h
    case h_1 inner hinner =>
      cases h
      exact Or.inl ⟨inner, hnew, hinner, rfl⟩
    case h_2 => cases h
  case h_2 old hold =>
    split at h
    case h_1 inner hinner =>
      cases h
      exact Or.inr (Or.inl ⟨.dotted, old, inner, hold, Or.inl rfl, hinner, rfl⟩)
    case h_2 => cases h
  case h_3 old hold =>
    split at h
    case isTrue => cases h
    case isFalse hmore =>
      have hne : more ≠ [] := by
        rintro rfl
        exact hmore rfl
      split at h
      case h_1 inner hinner =>
        cases h
        exact Or.inr (Or.inl ⟨.implied, old, inner, hold, Or.inr ⟨rfl, hne⟩, hinner, rfl⟩)
      case h_2 => cases h
  case h_4 elements hold =>
    split at h
    case h_1 span old hmore hlast =>
      have hne : more ≠ [] := by
        rintro rfl
        exact absurd hmore (by simp)
      split at h
      case h_1 inner hinner =>
        cases h
        exact Or.inr (Or.inr ⟨elements, span, old, inner, hold, hne, hlast, hinner, rfl⟩)
      case h_2 => cases h
    case h_2 => cases h
  case h_5 => cases h
  case h_6 => cases h

/-! ### One step of a header -/

variable {path : List String} {build : Table → Except Refusal (Span × Table)} {header : Header}

/-- Without parents, a header adds an element to an array of tables, which may be new, or
puts its table at the end, in place of one that was only implied. -/
theorem openAt_nil_cases (h : openAt path build header [] table = .ok result) :
    (∃ element, header.isElement = true ∧ table.get? header.path.last.name = none ∧
      build [] = .ok element ∧
      result = table ++ [(header.path.last, .tables [element])]) ∨
    (∃ elements element, header.isElement = true ∧
      table.get? header.path.last.name = some (.tables elements) ∧
      build [] = .ok element ∧
      result = table.replace header.path.last.name (.tables (elements ++ [element]))) ∨
    (∃ (old : Table) (span : Span) (inner : Table), (table.get? header.path.last.name = none ∧ old = [] ∨
        table.get? header.path.last.name = some (.table .implied old)) ∧
      build old = .ok (span, inner) ∧
      result = table.erase header.path.last.name ++
        [(header.path.last, .table (.header span) inner)]) := by
  unfold openAt at h
  dsimp only at h
  split at h
  case isTrue helement =>
    split at h
    case h_1 hnew =>
      split at h
      case h_1 element hbuild =>
        cases h
        exact Or.inl ⟨element, helement, hnew, hbuild, rfl⟩
      case h_2 => cases h
    case h_2 elements hold =>
      split at h
      case h_1 element hbuild =>
        cases h
        exact Or.inr (Or.inl ⟨elements, element, helement, hold, hbuild, rfl⟩)
      case h_2 => cases h
    case h_3 => cases h
  case isFalse =>
    split at h
    case h_1 hnew =>
      split at h
      case h_1 span inner hbuild =>
        cases h
        exact Or.inr (Or.inr ⟨[], span, inner, Or.inl ⟨hnew, rfl⟩, hbuild, rfl⟩)
      case h_2 => cases h
    case h_2 old hold =>
      split at h
      case h_1 span inner hbuild =>
        cases h
        exact Or.inr (Or.inr ⟨old, span, inner, Or.inr hold, hbuild, rfl⟩)
      case h_2 => cases h
    case h_3 => cases h

/-- With a parent, a header goes on in a new table, in any table that is not inline, or in
the last table of an array. -/
theorem openAt_cons_cases (h : openAt path build header (parent :: more) table = .ok result) :
    (∃ inner, table.get? parent.name = none ∧
      openAt (path ++ [parent.name]) build header more [] = .ok inner ∧
      result = table ++ [(parent, .table .implied inner)]) ∨
    (∃ (elements : List (Span × Table)) (span : Span) (last inner : Table),
      table.get? parent.name = some (.tables elements) ∧
      elements.getLast? = some (span, last) ∧
      openAt (path ++ [parent.name]) build header more last = .ok inner ∧
      result = table.replace parent.name (.tables (elements.dropLast ++ [(span, inner)]))) ∨
    (∃ (origin : Origin) (old inner : Table), table.get? parent.name = some (.table origin old) ∧
      (∀ span, origin ≠ .inline span) ∧
      openAt (path ++ [parent.name]) build header more old = .ok inner ∧
      result = table.replace parent.name (.table origin inner)) := by
  unfold openAt at h
  dsimp only at h
  split at h
  case h_1 hnew =>
    split at h
    case h_1 inner hinner =>
      cases h
      exact Or.inl ⟨inner, hnew, hinner, rfl⟩
    case h_2 => cases h
  case h_2 elements hold =>
    split at h
    case h_1 span last hlast =>
      split at h
      case h_1 inner hinner =>
        cases h
        exact Or.inr (Or.inl ⟨elements, span, last, inner, hold, hlast, hinner, rfl⟩)
      case h_2 => cases h
    case h_2 => cases h
  case h_3 => cases h
  case h_4 origin old hinline hold =>
    split at h
    case h_1 inner hinner =>
      cases h
      refine Or.inr (Or.inr ⟨origin, old, inner, hold, ?_, hinner, rfl⟩)
      rintro span rfl
      exact hinline span rfl
    case h_2 => cases h
  case h_5 => cases h

/-! ### Distinct keys -/

/-- With another last table, an array of tables stays one of tables with distinct keys. -/
theorem distinct_tables_concat {elements : List (Span × Table)} {last : Span × Table}
    (h : ∀ element ∈ elements, element.2.Distinct) (hlast : last.2.Distinct) :
    (Node.tables (elements ++ [last])).Distinct := by
  rw [Node.distinct_tables_iff]
  intro element hmem
  rcases List.mem_append.mp hmem with hold | hnew
  · exact h element hold
  · rw [List.mem_singleton.mp hnew]
    exact hlast

/-- The last table of an array below a table has distinct keys. -/
theorem Distinct.of_getLast? (htable : table.Distinct) {name : String}
    {elements : List (Span × Table)} {last : Span × Table}
    (hold : table.get? name = some (.tables elements)) (hlast : elements.getLast? = some last) :
    last.2.Distinct :=
  Node.distinct_tables_iff.mp (htable.of_get? hold) last (List.mem_of_getLast? hlast)

theorem Distinct.of_table (htable : table.Distinct) {name : String} {origin : Origin}
    {old : Table} (hold : table.get? name = some (.table origin old)) : old.Distinct :=
  Node.distinct_table_iff.mp (htable.of_get? hold)

/-- The last table of an array may be replaced. -/
theorem Distinct.replaceLast (htable : table.Distinct) {name : String}
    {elements : List (Span × Table)} {last : Span × Table}
    (hold : table.get? name = some (.tables elements)) (hlast : last.2.Distinct) :
    (table.replace name (.tables (elements.dropLast ++ [last]))).Distinct := by
  have hbelow := Node.distinct_tables_iff.mp (htable.of_get? hold)
  exact htable.replace name (distinct_tables_concat
    (fun element hmem => hbelow element (List.dropLast_subset _ hmem)) hlast)

/-- An assignment keeps keys distinct. -/
theorem Distinct.assign (htable : table.Distinct) (hvalue : value.Distinct) {parents : List Key}
    (h : table.assign within parents key value = .ok result) : result.Distinct := by
  induction parents generalizing table result with
  | nil =>
      obtain ⟨hnew, rfl⟩ := assign_nil_cases h
      exact htable.concat hnew hvalue
  | cons parent more ih =>
      rcases assign_cons_cases h with ⟨inner, hnew, hinner, rfl⟩ |
        ⟨origin, old, inner, hold, -, hinner, rfl⟩ |
        ⟨elements, span, old, inner, hold, -, hlast, hinner, rfl⟩
      · have hdistinct : inner.Distinct := ih .nil hinner
        exact htable.concat hnew (Node.distinct_table_iff.mpr hdistinct)
      · have hdistinct : inner.Distinct := ih (htable.of_table hold) hinner
        exact htable.replace _ (Node.distinct_table_iff.mpr hdistinct)
      · have hdistinct : inner.Distinct := ih (htable.of_getLast? hold hlast) hinner
        exact htable.replaceLast hold hdistinct

/-- Assignments in order keep keys distinct. -/
theorem Distinct.assignAll (htable : table.Distinct) {assignments : List Assignment}
    (hvalues : ∀ assignment ∈ assignments, assignment.value.Distinct)
    (h : table.assignAll within assignments = .ok result) : result.Distinct := by
  induction assignments generalizing table with
  | nil =>
      cases h
      exact htable
  | cons first more ih =>
      unfold Table.assignAll at h
      split at h
      case h_1 next hfirst =>
        have hnext : next.Distinct := htable.assign (hvalues first List.mem_cons_self) hfirst
        exact ih hnext (fun assignment hmem => hvalues assignment (List.mem_cons_of_mem _ hmem)) h
      case h_2 => cases h

/-- A header keeps keys distinct, if they are in the table that it opens. -/
theorem Distinct.openAt (htable : table.Distinct)
    (hbuild : ∀ old : Table, old.Distinct → ∀ element, build old = .ok element →
      element.2.Distinct)
    {parents : List Key} (h : table.openAt path build header parents = .ok result) :
    result.Distinct := by
  induction parents generalizing table path result with
  | nil =>
      rcases openAt_nil_cases h with ⟨element, -, hnew, hmade, rfl⟩ |
        ⟨elements, element, -, hold, hmade, rfl⟩ | ⟨old, span, inner, hold, hmade, rfl⟩
      · have hnone : ∀ element ∈ ([] : List (Span × Table)), element.2.Distinct := by simp
        exact htable.concat hnew (distinct_tables_concat hnone (hbuild [] .nil element hmade))
      · have hbelow := Node.distinct_tables_iff.mp (htable.of_get? hold)
        exact htable.replace _ (distinct_tables_concat hbelow (hbuild [] .nil element hmade))
      · -- The implied table is erased before its key is added again, so the key is new.
        have hdistinct : old.Distinct := by
          rcases hold with ⟨-, rfl⟩ | hold
          · exact .nil
          · exact htable.of_table hold
        exact (htable.erase _).concat (get?_erase table _)
          (Node.distinct_table_iff.mpr (hbuild old hdistinct _ hmade))
  | cons parent more ih =>
      rcases openAt_cons_cases h with ⟨inner, hnew, hinner, rfl⟩ |
        ⟨elements, span, last, inner, hold, hlast, hinner, rfl⟩ |
        ⟨origin, old, inner, hold, -, hinner, rfl⟩
      · exact htable.concat hnew (Node.distinct_table_iff.mpr (ih .nil hinner))
      · have hdistinct : inner.Distinct := ih (htable.of_getLast? hold hlast) hinner
        exact htable.replaceLast hold hdistinct
      · have hdistinct : inner.Distinct := ih (htable.of_table hold) hinner
        exact htable.replace _ (Node.distinct_table_iff.mpr hdistinct)

end Table

namespace Section

/-- A section keeps keys distinct. -/
theorem addTo_distinct {part : Section} {root result : Table} (hroot : root.Distinct)
    (hvalues : ∀ assignment ∈ part.body, assignment.value.Distinct)
    (h : part.addTo root = .ok result) : result.Distinct := by
  unfold addTo at h
  refine hroot.openAt ?_ h
  intro old hold element hmade
  split at hmade
  case h_1 body hbody =>
    cases hmade
    exact hold.assignAll hvalues hbody
  case h_2 => cases hmade

theorem addAll_distinct {parts : List Section} {root result : Table} (hroot : root.Distinct)
    (hvalues : ∀ part ∈ parts, ∀ assignment ∈ part.body, assignment.value.Distinct)
    (h : addAll parts root = .ok result) : result.Distinct := by
  induction parts generalizing root with
  | nil =>
      cases h
      exact hroot
  | cons part more ih =>
      unfold addAll at h
      split at h
      case h_1 next hnext =>
        have hdistinct : next.Distinct :=
          addTo_distinct hroot (hvalues part List.mem_cons_self) hnext
        exact ih hdistinct (fun part hmem => hvalues part (List.mem_cons_of_mem _ hmem)) h
      case h_2 => cases h

/-- The assignments of a document's parts are those of its statements. -/
theorem mem_split {statements : List Statement} {assignment : Assignment}
    (h : assignment ∈ (split statements).1 ∨
      ∃ part ∈ (split statements).2, assignment ∈ part.body) :
    Statement.assign assignment ∈ statements := by
  induction statements with
  | nil => simp [split] at h
  | cons first more ih =>
      cases first with
      | assign other =>
          simp only [split, List.mem_cons] at h
          rcases h with (rfl | hbody) | hpart
          · exact List.mem_cons_self
          · exact List.mem_cons_of_mem _ (ih (Or.inl hbody))
          · exact List.mem_cons_of_mem _ (ih (Or.inr hpart))
      | header header =>
          simp only [split, List.not_mem_nil, false_or] at h
          obtain ⟨part, hpart, hbody⟩ := h
          rcases List.mem_cons.mp hpart with rfl | hlater
          · exact List.mem_cons_of_mem _ (ih (Or.inl hbody))
          · exact List.mem_cons_of_mem _ (ih (Or.inr ⟨part, hlater, hbody⟩))

end Section

/-- **The table that statements make has no key twice.** -/
theorem assemble_distinct {statements : List Statement} {table : Table}
    (hvalues : ∀ assignment, Statement.assign assignment ∈ statements →
      assignment.value.Distinct)
    (h : assemble statements = .ok table) : table.Distinct := by
  unfold assemble at h
  dsimp only at h
  split at h
  case h_1 root hroot =>
    have hdistinct : root.Distinct := Table.Distinct.nil.assignAll
      (fun assignment hmem => hvalues assignment (Section.mem_split (Or.inl hmem))) hroot
    exact Section.addAll_distinct hdistinct (fun part hpart assignment hmem =>
      hvalues assignment (Section.mem_split (Or.inr ⟨part, hpart, hmem⟩))) h
  case h_2 => cases h

end Salutation.Toml
