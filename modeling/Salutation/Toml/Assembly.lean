/-
Putting a document together.

A document is written as statements: assignments of values to dotted keys, and headers that
open a table for the assignments after them.  Here they become one table.  The order of the
keys is the order in which they first appear, with one exception: a table that was only
implied moves to the end of its parent when it gets its own header.

A table is defined once.  So a header may open what is new or merely implied, a dotted key
may pass only through what other dotted keys or longer headers made, and an assignment may
add only to a table that belongs to its own section.
-/
import Salutation.Toml.Key

namespace Salutation.Toml

/-- The assignment of a value to a dotted key. -/
structure Assignment where
  path : KeyPath
  value : Node

/-- The header of a table, or of one more table of an array. -/
structure Header where
  span : Span
  path : KeyPath
  isElement : Bool

/-- A header and the assignments below it. -/
structure Section where
  header : Header
  body : List Assignment

/-- One statement of a document. -/
inductive Statement where
  | assign (assignment : Assignment)
  | header (header : Header)

namespace Table

/-- Adds a value below a table, at a path of parents and a key.  `within` is the path of the
table itself, if it has one.  Parents that are missing are made. -/
def assign (within : Option (List String)) :
    List Key → Key → Node → Table → Except Cause Table
  | [], key, value, table =>
    match table.get? key.name with
    | none => .ok (table ++ [(key, value)])
    | some _ => .error (.duplicate key.name within)
  | parent :: more, key, value, table =>
    match table.get? parent.name with
    | none =>
      match assign within more key value [] with
      | .ok inner => .ok (table ++ [(parent, .table .dotted inner)])
      | .error cause => .error cause
    | some (.table .dotted inner) =>
      match assign within more key value inner with
      | .ok inner => .ok (table.replace parent.name (.table .dotted inner))
      | .error cause => .error cause
    | some (.table .implied inner) =>
      -- The last parent has to be a table that a dotted key made.
      if more.isEmpty then .error (.duplicate key.name none)
      else
        match assign within more key value inner with
        | .ok inner => .ok (table.replace parent.name (.table .implied inner))
        | .error cause => .error cause
    | some (.tables elements) =>
      match more.isEmpty, elements.getLast? with
      | false, some (span, inner) =>
        match assign within more key value inner with
        | .ok inner => .ok (table.replace parent.name (.tables (elements.dropLast ++ [(span, inner)])))
        | .error cause => .error cause
      | _, _ => .error (.duplicate key.name none)
    | some (.table (.header _) _) => .error (.duplicate parent.name none)
    | some node => .error (.notATable [parent.name] node.kind)

/-- Opens the table that a header names, and puts in its place what `build` makes of the
table that is already there.  `within` is the path walked so far. -/
def openAt (within : List String) (build : Table → Except Refusal (Span × Table))
    (header : Header) : List Key → Table → Except Refusal Table
  | [], table =>
    let key := header.path.last
    let fail : Except Refusal Table :=
      .error ⟨header.span.start, .duplicate key.name (some within)⟩
    if header.isElement then
      match table.get? key.name with
      | none =>
        match build [] with
        | .ok element => .ok (table ++ [(key, .tables [element])])
        | .error refusal => .error refusal
      | some (.tables elements) =>
        match build [] with
        | .ok element => .ok (table.replace key.name (.tables (elements ++ [element])))
        | .error refusal => .error refusal
      | some _ => fail
    else
      let place (old : Table) : Except Refusal Table :=
        match build old with
        | .ok (span, inner) =>
          .ok (table.erase key.name ++ [(key, .table (.header span) inner)])
        | .error refusal => .error refusal
      match table.get? key.name with
      | none => place []
      | some (.table .implied old) => place old
      | some _ => fail
  | parent :: more, table =>
    let deeper := openAt (within ++ [parent.name]) build header more
    match table.get? parent.name with
    | none =>
      match deeper [] with
      | .ok inner => .ok (table ++ [(parent, .table .implied inner)])
      | .error refusal => .error refusal
    | some (.tables elements) =>
      match elements.getLast? with
      | some (span, last) =>
        match deeper last with
        | .ok inner => .ok (table.replace parent.name (.tables (elements.dropLast ++ [(span, inner)])))
        | .error refusal => .error refusal
      | none => .error ⟨header.span.start, .duplicate parent.name (some within)⟩
    | some (.table (.inline span) inner) =>
      .error ⟨header.span.start,
        .notATable (within ++ [parent.name]) (Node.table (.inline span) inner).kind⟩
    | some (.table origin inner) =>
      match deeper inner with
      | .ok inner => .ok (table.replace parent.name (.table origin inner))
      | .error refusal => .error refusal
    | some node => .error ⟨header.span.start, .notATable (within ++ [parent.name]) node.kind⟩

/-- Adds assignments to a table, in order.  A refusal is placed at the start of its
assignment. -/
def assignAll (within : Option (List String)) :
    List Assignment → Table → Except Refusal Table
  | [], table => .ok table
  | assignment :: more, table =>
    match table.assign within assignment.path.parents assignment.path.last assignment.value with
    | .ok table => assignAll within more table
    | .error cause => .error ⟨assignment.path.start, cause⟩

end Table

namespace Section

/-- The stretch of a section: from its header to the end of its last value. -/
def span (part : Section) : Span :=
  match part.body.getLast?.bind (·.value.span?) with
  | some last => ⟨part.header.span.start, last.stop⟩
  | none => part.header.span

/-- Adds a section to a document. -/
def addTo (part : Section) (root : Table) : Except Refusal Table :=
  let names := part.header.path.keys.map (·.name)
  let build (old : Table) : Except Refusal (Span × Table) :=
    match old.assignAll (some names) part.body with
    | .ok body => .ok (part.span, body)
    | .error refusal => .error refusal
  root.openAt [] build part.header part.header.path.parents

/-- Adds sections to a document, in order. -/
def addAll : List Section → Table → Except Refusal Table
  | [], root => .ok root
  | part :: more, root =>
    match part.addTo root with
    | .ok root => addAll more root
    | .error refusal => .error refusal

/-- The assignments before the first header, and the sections. -/
def split : List Statement → List Assignment × List Section
  | [] => ([], [])
  | .assign assignment :: more =>
    let (body, sections) := split more
    (assignment :: body, sections)
  | .header header :: more =>
    let (body, sections) := split more
    ([], ⟨header, body⟩ :: sections)

end Section

/-- The table that statements make. -/
def assemble (statements : List Statement) : Except Refusal Table :=
  let (body, sections) := Section.split statements
  match Table.assignAll (some []) body [] with
  | .ok root => Section.addAll sections root
  | .error refusal => .error refusal

end Salutation.Toml
