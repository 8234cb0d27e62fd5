/-
What stays in a table while it is put together.

A table is opened by a path of keys if headers and dotted keys have made a table at each of them.
Assignments and headers only ever add to what is open: a path that opens a table goes on doing so,
and a value that is not open itself stays what it is.  Only the header of one more element of an
array closes something, for then the path opens the new element.

So without such headers every path of a header is open in the end, every value of an assignment is
where it was put, and therefore no header goes through the key of an assignment.
-/
import Salutation.Proofs.Toml.Outline
import Salutation.Proofs.Toml.Refusal
import Salutation.Toml.Value

namespace Salutation.Toml

/-! ### Open tables -/

/-- The table to which a value can still be added. -/
def Node.opened? : Node → Option Table
  | .table (.inline _) _ => none
  | .table _ entries => some entries
  | .tables elements => elements.getLast?.map (·.2)
  | .scalar _ _ => none
  | .array _ _ => none

/-- A value as it is written behind an equals sign. -/
inductive Node.IsWritten : Node → Prop where
  | scalar (span : Span) (value : Scalar) : IsWritten (.scalar span value)
  | array (span : Span) (elements : List Node) : IsWritten (.array span elements)
  | inline (span : Span) (entries : Table) : IsWritten (.table (.inline span) entries)

theorem Node.IsWritten.opened? {node : Node} (h : node.IsWritten) : node.opened? = none := by
  cases h <;> rfl

theorem value_isWritten {text after : List Char} {node : Node}
    (h : value text = .ok (node, after)) : node.IsWritten := by
  unfold value nestingLimit valueWithin at h
  split at h
  case h_1 =>
    obtain ⟨_, -, h⟩ := bind_eq_ok.mp h
    cases h
    exact .array _ _
  case h_2 =>
    obtain ⟨⟨members, stop⟩, -, h⟩ := bind_eq_ok.mp h
    obtain ⟨table, -, h⟩ := bind_eq_ok.mp h
    split at h <;> cases h
    exact .inline _ _
  case h_3 =>
    obtain ⟨⟨found, left⟩, -, h⟩ := bind_eq_ok.mp h
    cases h
    exact .scalar _ _

namespace Table

/-- The table that a path of keys opens below a table. -/
def opened? : Table → List String → Option Table
  | table, [] => some table
  | table, name :: more =>
    ((table.get? name).bind Node.opened?).bind (opened? · more)

/-- Every path opens what it did before, with the same values in it but for what is open. -/
def Grows (table result : Table) : Prop :=
  ∀ path inner, table.opened? path = some inner → ∃ later, result.opened? path = some later ∧
    ∀ name node, inner.get? name = some node → node.opened? = none →
      later.get? name = some node

theorem opened?_append (table : Table) (front rest : List String) :
    table.opened? (front ++ rest) = (table.opened? front).bind (opened? · rest) := by
  induction front generalizing table with
  | nil => rfl
  | cons name more ih =>
      rw [List.cons_append, opened?, opened?, Option.bind_assoc _ _ (opened? · rest)]
      exact Option.bind_congr fun below _ => ih below

variable {table result : Table}

theorem Grows.refl (table : Table) : table.Grows table :=
  fun _ inner h => ⟨inner, h, fun _ _ hnode _ => hnode⟩

theorem Grows.trans {middle : Table} (h : table.Grows middle) (hmiddle : middle.Grows result) :
    table.Grows result := by
  intro path inner hinner
  obtain ⟨between, hbetween, hkept⟩ := h path inner hinner
  obtain ⟨later, hlater, hkept'⟩ := hmiddle path between hbetween
  exact ⟨later, hlater, fun name node hnode hclosed =>
    hkept' name node (hkept name node hnode hclosed) hclosed⟩

/-- A table grows if its values stay, or are open and grow. -/
theorem grows_of_get? (h : ∀ name node, table.get? name = some node →
    ∃ later, result.get? name = some later ∧ (later = node ∨
      ∃ old inner, node.opened? = some old ∧ later.opened? = some inner ∧ old.Grows inner)) :
    table.Grows result := by
  intro path inner hinner
  cases path with
  | nil =>
      cases hinner
      refine ⟨result, rfl, fun name node hnode hclosed => ?_⟩
      obtain ⟨later, hlater, rfl | ⟨old, _, hopened, -⟩⟩ := h name node hnode
      · exact hlater
      · rw [hclosed] at hopened
        cases hopened
  | cons name more =>
      obtain ⟨below, hbelow, hinner⟩ := Option.bind_eq_some_iff.mp hinner
      obtain ⟨node, hnode, hopened⟩ := Option.bind_eq_some_iff.mp hbelow
      obtain ⟨later, hlater, rfl | ⟨old, grown, hold, hgrown, hgrows⟩⟩ := h name node hnode
      · exact ⟨inner, by simp [opened?, hlater, hopened, hinner], fun _ _ hkept _ => hkept⟩
      · obtain rfl : below = old := Option.some.inj (hopened.symm.trans hold)
        obtain ⟨found, hfound, hkept⟩ := hgrows more inner hinner
        exact ⟨found, by simp [opened?, hlater, hgrown, hfound], hkept⟩

/-! ### Looking up a key behind a change

A table changes in three ways: an entry is added at the end, an entry is replaced in its place, or
an entry is taken out and added again.  What is found at another key stays, and at the changed key
the table that is open there has grown itself.
-/

theorem get?_concat (table : Table) (key : Key) (node : Node) (name : String) :
    get? (table ++ [(key, node)]) name =
      (table.get? name).or (if key.name = name then some node else none) := by
  induction table with
  | nil => rw [List.nil_append, get?_cons]; rfl
  | cons entry more ih =>
      rw [List.cons_append, show entry :: more = (entry.1, entry.2) :: more from rfl,
        show entry :: (more ++ [(key, node)]) = (entry.1, entry.2) :: (more ++ [(key, node)]) from
          rfl,
        get?_cons, get?_cons, ih]
      split <;> rfl

theorem get?_replace (table : Table) (changed : String) (node : Node) (name : String) :
    (table.replace changed node).get? name =
      (table.get? name).map fun old => if name = changed then node else old := by
  have hreplace : table.replace changed node =
      table.map fun entry => (entry.1, if entry.1.name = changed then node else entry.2) := by
    refine List.map_congr_left fun entry _ => ?_
    dsimp only
    split <;> rfl
  rw [hreplace, get?_mapNodes (fun name old => if name = changed then node else old)]

theorem get?_erase_of_ne {name other : String} (h : other ≠ name) (table : Table) :
    (table.erase name).get? other = table.get? other := by
  have herase := get?_filter (· ≠ name) table other
  simpa [erase, h] using herase

/-- A table grows by a new entry. -/
theorem grows_concat (table : Table) (key : Key) (node : Node) :
    table.Grows (table ++ [(key, node)]) := by
  refine grows_of_get? fun name old hold => ⟨old, ?_, Or.inl rfl⟩
  rw [get?_concat, hold, Option.some_or]

/-- A table grows if an open table in it does. -/
theorem grows_replace {name : String} {node later : Node} {old inner : Table}
    (hnode : table.get? name = some node) (hold : node.opened? = some old)
    (hinner : later.opened? = some inner) (h : old.Grows inner) :
    table.Grows (table.replace name later) := by
  refine grows_of_get? fun other found hfound => ?_
  rw [get?_replace, hfound, Option.map_some]
  by_cases hname : other = name
  · rw [if_pos hname]
    rw [hname, hnode] at hfound
    cases hfound
    exact ⟨later, rfl, Or.inr ⟨old, inner, hold, hinner, h⟩⟩
  · exact ⟨found, by rw [if_neg hname], Or.inl rfl⟩

/-- The last table of an array is the one that is open. -/
theorem opened?_concat (elements : List (Span × Table)) (last : Span × Table) :
    Node.opened? (.tables (elements ++ [last])) = some last.2 := by
  simp [Node.opened?]

/-! ### Assignments -/

variable {within : Option (List String)} {key : Key} {value : Node}

/-- A table grows by an assignment. -/
theorem assign_grows {parents : List Key}
    (h : table.assign within parents key value = .ok result) : table.Grows result := by
  induction parents generalizing table result with
  | nil =>
      obtain ⟨-, rfl⟩ := assign_nil_cases h
      exact grows_concat _ key value
  | cons parent more ih =>
      rcases assign_cons_cases h with ⟨inner, -, -, rfl⟩ |
        ⟨origin, old, inner, hold, horigin, hinner, rfl⟩ |
        ⟨elements, span, old, inner, hold, -, hlast, hinner, rfl⟩
      · exact grows_concat _ parent _
      · have hopen : ∀ entries, Node.opened? (.table origin entries) = some entries := by
          rcases horigin with rfl | ⟨rfl, -⟩ <;> exact fun _ => rfl
        exact grows_replace hold (hopen old) (hopen inner) (ih hinner)
      · have hopen : Node.opened? (.tables elements) = some old := by
          simp [Node.opened?, hlast]
        exact grows_replace hold hopen (opened?_concat _ _) (ih hinner)

/-- A table grows by assignments, and a value that is assigned to a single key stays there. -/
theorem assignAll_grows {assignments : List Assignment}
    (h : table.assignAll within assignments = .ok result) :
    table.Grows result ∧ ∀ a ∈ assignments, a.path.parents = [] → a.value.opened? = none →
      result.get? a.path.last.name = some a.value := by
  induction assignments generalizing table with
  | nil =>
      cases h
      exact ⟨.refl _, by simp⟩
  | cons first more ih =>
      unfold assignAll at h
      split at h
      case h_2 => cases h
      case h_1 next hfirst =>
        obtain ⟨hmore, hkept⟩ := ih h
        refine ⟨(assign_grows hfirst).trans hmore, List.forall_mem_cons.mpr ⟨?_, hkept⟩⟩
        intro hsingle hclosed
        rw [hsingle] at hfirst
        obtain ⟨hnew, rfl⟩ := assign_nil_cases hfirst
        obtain ⟨later, hlater, hvalues⟩ := hmore [] _ rfl
        cases hlater
        refine hvalues _ _ ?_ hclosed
        rw [get?_concat, hnew, if_pos rfl, Option.none_or]

/-! ### Headers -/

section

variable {path : List String} {build : Table → Except Refusal (Span × Table)} {header : Header}
  (helement : header.isElement = false)

include helement

/-- A table grows by a header if what is in its place does, and then the header's path opens what
was built there. -/
theorem openAt_grows {holds : Table → Prop}
    (hbuild : ∀ old span inner, build old = .ok (span, inner) → old.Grows inner ∧ holds inner)
    {parents : List Key} (h : table.openAt path build header parents = .ok result) :
    table.Grows result ∧ ∃ inner,
      result.opened? ((parents ++ [header.path.last]).map (·.name)) = some inner ∧ holds inner := by
  induction parents generalizing table path result with
  | nil =>
      rcases openAt_nil_cases h with ⟨_, hother, -⟩ | ⟨_, _, hother, -⟩ |
        ⟨old, span, inner, hold, hmade, rfl⟩
      · rw [helement] at hother
        cases hother
      · rw [helement] at hother
        cases hother
      · obtain ⟨hgrows, hinner⟩ := hbuild old span inner hmade
        have hlast : get? (table.erase header.path.last.name ++
            [(header.path.last, .table (.header span) inner)]) header.path.last.name =
            some (.table (.header span) inner) := by
          rw [get?_concat, get?_erase, if_pos rfl, Option.none_or]
        refine ⟨grows_of_get? fun name node hnode => ?_, inner, ?_, hinner⟩
        · by_cases hname : name = header.path.last.name
          · -- What was there before is the implied table that the header's table was made from.
            subst hname
            rcases hold with ⟨hnone, -⟩ | hold
            · rw [hnone] at hnode
              cases hnode
            · obtain rfl := Option.some.inj (hnode.symm.trans hold)
              exact ⟨_, hlast, Or.inr ⟨old, inner, rfl, rfl, hgrows⟩⟩
          · refine ⟨node, ?_, Or.inl rfl⟩
            rw [get?_concat, get?_erase_of_ne hname, hnode, Option.some_or]
        · simp [opened?, hlast, Node.opened?]
  | cons parent more ih =>
      rcases openAt_cons_cases h with ⟨inner, hnew, hinner, rfl⟩ |
        ⟨elements, span, last, inner, hold, hlast, hinner, rfl⟩ |
        ⟨origin, old, inner, hold, horigin, hinner, rfl⟩
      · obtain ⟨-, made, hopened, hmade⟩ := ih hinner
        refine ⟨grows_concat _ parent _, made, ?_, hmade⟩
        have hget : get? (table ++ [(parent, .table .implied inner)]) parent.name =
            some (.table .implied inner) := by
          rw [get?_concat, hnew, if_pos rfl, Option.none_or]
        simpa [opened?, hget, Node.opened?] using hopened
      · obtain ⟨hgrows, made, hopened, hmade⟩ := ih hinner
        have hopen : Node.opened? (.tables elements) = some last := by
          simp [Node.opened?, hlast]
        refine ⟨grows_replace hold hopen (opened?_concat _ _) hgrows, made, ?_, hmade⟩
        simpa [opened?, get?_replace, hold, opened?_concat] using hopened
      · obtain ⟨hgrows, made, hopened, hmade⟩ := ih hinner
        have hopen : ∀ entries, Node.opened? (.table origin entries) = some entries := by
          cases origin with
          | inline span => exact absurd rfl (horigin span)
          | _ => exact fun _ => rfl
        refine ⟨grows_replace hold (hopen old) (hopen inner) hgrows, made, ?_, hmade⟩
        simpa [opened?, get?_replace, hold, hopen] using hopened

end

/-! ### Arrays of tables at the root

What keeps a table from only growing is an array of tables, because its header closes the element
before.  Without such headers none comes up at the root of a document of single keys.
-/

/-- No array of tables stands at a key of the table itself. -/
def IsFlat (table : Table) : Prop :=
  ∀ name elements, table.get? name ≠ some (.tables elements)

theorem IsFlat.concat (h : table.IsFlat) {node : Node} (hnode : ∀ elements, node ≠ .tables elements)
    (key : Key) : IsFlat (table ++ [(key, node)]) := by
  intro name elements hname
  rw [get?_concat] at hname
  rcases Option.or_eq_some_iff.mp hname with hold | ⟨-, hnew⟩
  · exact h name elements hold
  · split at hnew <;> cases hnew
    exact hnode elements rfl

theorem IsFlat.assignAll {assignments : List Assignment} (htable : table.IsFlat)
    (hsingle : ∀ a ∈ assignments, a.path.parents = [] ∧ a.value.IsWritten)
    (h : table.assignAll within assignments = .ok result) : result.IsFlat := by
  induction assignments generalizing table with
  | nil =>
      cases h
      exact htable
  | cons first more ih =>
      obtain ⟨⟨hfirst, hvalue⟩, hmore⟩ := List.forall_mem_cons.mp hsingle
      unfold Table.assignAll at h
      rw [hfirst] at h
      split at h
      case h_2 => cases h
      case h_1 next hnext =>
        obtain ⟨-, rfl⟩ := assign_nil_cases hnext
        refine ih (htable.concat (fun elements hsame => ?_) _) hmore h
        rw [hsame] at hvalue
        cases hvalue

theorem IsFlat.openAt {path : List String} {build : Table → Except Refusal (Span × Table)}
    {header : Header} (htable : table.IsFlat) (helement : header.isElement = false)
    {parents : List Key} (h : table.openAt path build header parents = .ok result) :
    result.IsFlat := by
  cases parents with
  | nil =>
      rcases openAt_nil_cases h with ⟨_, hother, -⟩ | ⟨_, _, hother, -⟩ | ⟨_, _, _, -, -, rfl⟩
      · rw [helement] at hother
        cases hother
      · rw [helement] at hother
        cases hother
      · refine IsFlat.concat (fun name elements hname => ?_) (by simp) _
        by_cases hlast : name = header.path.last.name
        · rw [hlast, get?_erase] at hname
          cases hname
        · rw [get?_erase_of_ne hlast] at hname
          exact htable name elements hname
  | cons parent more =>
      rcases openAt_cons_cases h with ⟨_, -, -, rfl⟩ | ⟨elements, _, _, _, hold, -⟩ |
        ⟨_, _, _, hold, -, -, rfl⟩
      · exact htable.concat (by simp) _
      · exact absurd hold (htable _ elements)
      · intro name elements hname
        rw [get?_replace, Option.map_eq_some_iff] at hname
        obtain ⟨old, hfound, hsame⟩ := hname
        split at hsame
        · cases hsame
        · exact htable name elements (hsame ▸ hfound)

end Table

/-! ### Documents -/

/-- A statement without dots that closes nothing: an assignment of a value to a single key, or the
header of a table that is no element of an array. -/
def Statement.ClosesNothing : Statement → Prop
  | .assign a => a.path.parents = [] ∧ a.value.IsWritten
  | .header h => h.isElement = false

/-- A table that a document's part has its place in: the path of its header is open there, and its
values stand where they were put. -/
def Section.IsIn (part : Section) (table : Table) : Prop :=
  ∃ inner, table.opened? part.header.path.names = some inner ∧
    ∀ a ∈ part.body, inner.get? a.path.last.name = some a.value

namespace Section

variable {root result : Table}

theorem IsIn.grows {part : Section} (hvalues : ∀ a ∈ part.body, a.value.IsWritten)
    (h : part.IsIn root) (hgrows : root.Grows result) : part.IsIn result := by
  obtain ⟨inner, hinner, hbody⟩ := h
  obtain ⟨later, hlater, hkept⟩ := hgrows _ inner hinner
  exact ⟨later, hlater, fun a ha => hkept _ _ (hbody a ha) (hvalues a ha).opened?⟩

theorem addTo_grows {part : Section} (helement : part.header.isElement = false)
    (hbody : ∀ a ∈ part.body, a.path.parents = [] ∧ a.value.IsWritten)
    (h : part.addTo root = .ok result) : root.Grows result ∧ part.IsIn result := by
  unfold addTo at h
  refine Table.openAt_grows helement (fun old span inner hmade => ?_) h
  split at hmade
  case h_2 => cases hmade
  case h_1 body hassigned =>
    cases hmade
    obtain ⟨hgrows, hkept⟩ := Table.assignAll_grows hassigned
    exact ⟨hgrows, fun a ha => hkept a ha (hbody a ha).1 (hbody a ha).2.opened?⟩

theorem addAll_grows {parts : List Section}
    (hparts : ∀ part ∈ parts, part.header.isElement = false ∧
      ∀ a ∈ part.body, a.path.parents = [] ∧ a.value.IsWritten)
    (hroot : root.IsFlat) (h : addAll parts root = .ok result) :
    root.Grows result ∧ result.IsFlat ∧ ∀ part ∈ parts, part.IsIn result := by
  induction parts generalizing root with
  | nil =>
      cases h
      exact ⟨.refl _, hroot, by simp⟩
  | cons part more ih =>
      obtain ⟨⟨helement, hbody⟩, hmore⟩ := List.forall_mem_cons.mp hparts
      unfold addAll at h
      split at h
      case h_2 => cases h
      case h_1 next hnext =>
        obtain ⟨hfirst, hpart⟩ := addTo_grows helement hbody hnext
        obtain ⟨hgrows, hflat, hkept⟩ := ih hmore (hroot.openAt helement hnext) h
        refine ⟨hfirst.trans hgrows, hflat, List.forall_mem_cons.mpr ⟨?_, hkept⟩⟩
        exact hpart.grows (fun a ha => (hbody a ha).2) hgrows

end Section

section

variable {all : List Statement} {table : Table} (hall : ∀ s ∈ all, s.ClosesNothing)

include hall

theorem single_of_part : ∀ part ∈ (Section.split all).2, part.header.isElement = false ∧
    ∀ a ∈ part.body, a.path.parents = [] ∧ a.value.IsWritten := by
  intro part hpart
  refine ⟨?_, fun a ha => hall _ (Section.mem_split (Or.inr ⟨part, hpart, ha⟩))⟩
  have hmem : (part.header.path.names, Statement.header part.header) ∈ outline [] all :=
    mem_outline.mpr (Or.inr ⟨part, hpart, Or.inl rfl⟩)
  exact forall_outline hall _ hmem

/-- **The paths of headers are open in the table that statements make, and assigned values stand
where they were put.** -/
theorem assemble_opens (h : assemble all = .ok table) : table.IsFlat ∧
    (∀ a ∈ (Section.split all).1, table.get? a.path.last.name = some a.value) ∧
    ∀ part ∈ (Section.split all).2, part.IsIn table := by
  unfold assemble at h
  dsimp only at h
  split at h
  case h_2 => cases h
  case h_1 root hroot =>
    have hbody : ∀ a ∈ (Section.split all).1, a.path.parents = [] ∧ a.value.IsWritten :=
      fun a ha => hall _ (Section.mem_split (Or.inl ha))
    have hempty : Table.IsFlat [] := nofun
    obtain ⟨-, hassigned⟩ := Table.assignAll_grows hroot
    obtain ⟨hgrows, htable, hparts⟩ :=
      Section.addAll_grows (single_of_part hall) (hempty.assignAll hbody hroot) h
    obtain ⟨later, hlater, hkept⟩ := hgrows [] root rfl
    cases hlater
    refine ⟨htable, fun a ha => ?_, hparts⟩
    obtain ⟨hsingle, hvalue⟩ := hbody a ha
    exact hkept _ _ (hassigned a ha hsingle hvalue.opened?) hvalue.opened?

/-- The path of a header is open in the table that statements make. -/
theorem opened_of_header (h : assemble all = .ok table) {names : List String} {header : Header}
    (hheader : (names, Statement.header header) ∈ outline [] all) :
    ∃ inner, table.opened? names = some inner := by
  obtain ⟨-, -, hparts⟩ := assemble_opens hall h
  rcases mem_outline.mp hheader with ⟨_, -, hsame⟩ | ⟨part, hmem, hsame | ⟨_, -, hsame⟩⟩
  · cases hsame
  · cases hsame
    obtain ⟨inner, hinner, -⟩ := hparts part hmem
    exact ⟨inner, hinner⟩
  · cases hsame

/-- The value of an assignment stands at its path. -/
theorem opened_of_assign (h : assemble all = .ok table) {path : List String} {a : Assignment}
    (hassign : (path, Statement.assign a) ∈ outline [] all) :
    ∃ front inner, path = front ++ [a.path.last.name] ∧ table.opened? front = some inner ∧
      inner.get? a.path.last.name = some a.value := by
  obtain ⟨-, hbody, hparts⟩ := assemble_opens hall h
  have hsingle : a.path.names = [a.path.last.name] :=
    KeyPath.names_of_single (forall_outline hall _ hassign).1
  rcases mem_outline.mp hassign with ⟨_, hmem, hsame⟩ | ⟨part, hmem, hsame | ⟨_, ha, hsame⟩⟩
  · cases hsame
    exact ⟨[], table, by rw [hsingle], rfl, hbody a hmem⟩
  · cases hsame
  · cases hsame
    obtain ⟨inner, hinner, hkept⟩ := hparts part hmem
    exact ⟨_, inner, by rw [hsingle], hinner, hkept a ha⟩

/-- **No header goes through the key of an assignment.** -/
theorem not_prefix_of_header (h : assemble all = .ok table) {path names : List String}
    {a : Assignment} {header : Header} (hassign : (path, Statement.assign a) ∈ outline [] all)
    (hheader : (names, Statement.header header) ∈ outline [] all) : ¬path <+: names := by
  rintro ⟨rest, rfl⟩
  obtain ⟨front, inner, rfl, hfront, hvalue⟩ := opened_of_assign hall h hassign
  obtain ⟨last, hlast⟩ := opened_of_header hall h hheader
  have hclosed : a.value.opened? = none := (forall_outline hall _ hassign).2.opened?
  rw [List.append_assoc, Table.opened?_append, hfront] at hlast
  simp [Table.opened?, hvalue, hclosed] at hlast

end

end Salutation.Toml
