/-
What becomes of the values of a document.

A value is found in its document by a route: the keys, and the positions in arrays, that lead to
it.  The decoder goes through entries and fields, and what it does is seen here from one route.
Into a known table the second step leads to a field, which gets what is there, or to a key that is
reported; elsewhere the first step leads to a key that is reported.  What lies further on shares
the fate of what it is a part of.

The exception is an array in place of a known table.  Its elements give the fields in order, and
those beyond the last field are neither used nor reported.
-/
import Salutation.Proofs.Config.Unknown

namespace Salutation

/-! ### Routes

A route goes by keys and by positions, and not by values, because the same value may stand in a
document many times.  Fields are given by either: a table gives them by their keys, and an array by
their order.
-/

namespace Toml

/-- A step from a value to one of its parts. -/
inductive Step where
  | key (name : String)
  | element (index : Nat)
  deriving Repr, DecidableEq

/-- The steps that lead to a value. -/
abbrev Route := List Step

/-- The part of a value to which a step leads. -/
def Node.child? : Step → Node → Option Node
  | .key name, .table _ entries => Table.get? entries name
  | .element index, .array _ nodes => nodes[index]?
  | .element index, .tables elements =>
    elements[index]?.map fun (span, entries) => .table (.header span) entries
  | _, _ => none

/-- The value to which a route leads from another value. -/
def Node.at? : Route → Node → Option Node
  | [], node => some node
  | step :: route, node => (node.child? step).bind (at? route)

/-- The value to which a route leads in a document. -/
def Table.at? (table : Table) : Route → Option Node
  | .key name :: route => (table.get? name).bind (Node.at? route)
  | _ => none

/-- Whether a value is made to have parts. -/
def Node.isContainer : Node → Bool
  | .scalar _ _ => false
  | _ => true

end Toml

namespace Config

open Toml

/-- The step to a field from its table: the key of the field, or its position. -/
def IsSlot (key : String) (index : Nat) (step : Step) : Prop :=
  step = .key key ∨ step = .element index

/-- A value on the route to a field that is the field's value in a configuration. -/
inductive GivesField (config : Config) : Route → Node → Prop where
  | name {step : Step} {node : Node} (hstep : IsSlot "name" 0 step)
      (hvalue : IsText node config.greeting.name) : GivesField config [.key "greeting", step] node
  | message {step : Step} {node : Node} (hstep : IsSlot "message" 1 step)
      (hvalue : IsText node config.greeting.message) :
      GivesField config [.key "greeting", step] node
  | format {step : Step} {node : Node} (hstep : IsSlot "format" 0 step)
      (hvalue : IsName node config.output.format.name) :
      GivesField config [.key "output", step] node
  | verbosity {step : Step} {node : Node} (hstep : IsSlot "verbosity" 1 step)
      (hvalue : IsName node config.output.verbosity.name) :
      GivesField config [.key "output", step] node

/-- A route that leads to or through the value of a field, or along a path that is reported. -/
inductive Accounted (table : Table) (config : Config) (unknown : List (List String))
    (route : Route) : Prop where
  | used {front : Route} {node : Node} (hfront : front <+: route)
      (hnode : table.at? front = some node) (hfield : GivesField config front node)
  | reported {path : List String} (hpath : path ∈ unknown) (hfront : path.map .key <+: route)

/-- A route to or through an element that is left over of an array in place of a known table. -/
def IsSurplus (route : Route) : Prop :=
  ∃ name ∈ ["greeting", "output"], ∃ index, 2 ≤ index ∧ [.key name, .element index] <+: route

/-! ### Parts of a known table -/

/-- A step leads to one of two fields, or to another key, or beyond the second element. -/
theorem step_cases (first second : String) (step : Step) :
    IsSlot first 0 step ∨ IsSlot second 1 step ∨
      (∃ name, step = .key name ∧ name ∉ [first, second]) ∨
      ∃ index, 2 ≤ index ∧ step = .element index := by
  match step with
  | .element 0 => exact Or.inl (Or.inr rfl)
  | .element 1 => exact Or.inr (Or.inl (Or.inr rfl))
  | .element (index + 2) => exact Or.inr (Or.inr (Or.inr ⟨index + 2, by omega, rfl⟩))
  | .key name =>
    by_cases hfirst : name = first
    · exact Or.inl (Or.inl (by rw [hfirst]))
    · by_cases hsecond : name = second
      · exact Or.inr (Or.inl (Or.inl (by rw [hsecond])))
      · exact Or.inr (Or.inr (Or.inl ⟨name, rfl, by simp [hfirst, hsecond]⟩))

section

variable {ρ : Type} {fields : List (Field ρ)} {wanted : Wanted} {default result : ρ}
  {place : Span} {node part : Node} {unknown : List String}

theorem part?_of_child {key : String} {index : Nat} {step : Step} (hstep : IsSlot key index step)
    (h : node.child? step = some part) : part? index key node = some part := by
  rcases hstep with rfl | rfl <;> cases node <;> first | exact h | cases h

/-- A part at the place of a field is what the field gets. -/
theorem read_of_child {α : Type} {get : ρ → α} {read : Node → Option α} {key : String}
    {index : Nat} (htakes : Takes get read key fields index) (hnode : node.Distinct)
    (h : decodeRecord fields wanted default place node = .ok (result, unknown)) {step : Step}
    (hstep : IsSlot key index step) (hpart : node.child? step = some part) :
    read part = some (get result) := by
  have hsets := decodeRecord_sets htakes hnode h
  rw [part?_of_child hstep hpart] at hsets
  exact hsets

/-- A part at a key that no field has is reported. -/
theorem mem_unknown_of_child
    (h : decodeRecord fields wanted default place node = .ok (result, unknown)) {name : String}
    (hname : (fields.find? (·.key = name)).isNone) (hpart : node.child? (.key name) = some part) :
    name ∈ unknown := by
  cases node with
  | table origin entries =>
      rw [putEntries_unknown h]
      obtain ⟨key, rfl, hmem⟩ := Table.exists_of_get? hpart
      exact List.mem_filter.mpr ⟨List.mem_map_of_mem hmem, hname⟩
  | _ => cases hpart

/-- Only a value with parts, or a date or time, can stand in place of a known table. -/
theorem container_or_moment
    (h : decodeRecord fields wanted default place node = .ok (result, unknown)) :
    node.isContainer ∨
      (∃ span written, node = .scalar span (.moment written)) ∧ unknown = [momentKey] := by
  unfold decodeRecord at h
  dsimp only at h
  split at h
  case h_1 | h_2 | h_3 => exact Or.inl rfl
  case h_4 span written =>
    cases h
    exact Or.inr ⟨⟨span, written, rfl⟩, rfl⟩
  case h_5 => cases h

/-- The unknown keys of a value do not depend on what else is known of it. -/
theorem decodeRecord_names {other : Span} {result' : ρ} {unknown' : List String}
    (h : decodeRecord fields wanted default place node = .ok (result, unknown))
    (h' : decodeRecord fields wanted default other node = .ok (result', unknown')) :
    unknown = unknown' := by
  unfold decodeRecord at h h'
  dsimp only at h h'
  split at h
  case h_1 => rw [putEntries_unknown h, putEntries_unknown h']
  case h_2 | h_3 =>
    obtain ⟨_, -, hresult⟩ := map_eq_ok.mp h
    obtain ⟨_, -, hresult'⟩ := map_eq_ok.mp h'
    cases hresult
    cases hresult'
    rfl
  case h_4 =>
    cases h
    cases h'
    rfl
  case h_5 => cases h

/-- What stands in place of a known table may stand there, and each of its parts is what one of the
two fields gets, or reported, or left over.  The record may have been decoded with another fallback
than the keys that are reported. -/
theorem record_accounts {α β : Type} {first second name : String} {new : ρ} {get₁ : ρ → α}
    {read₁ : Node → Option α} {get₂ : ρ → β} {read₂ : Node → Option β}
    {reported : List (List String)}
    (hfields : ∀ key, (fields.find? (·.key = key)).isNone ↔ key ∉ [first, second])
    (hfirst : Takes get₁ read₁ first fields 0) (hsecond : Takes get₂ read₂ second fields 1)
    (hnode : node.Distinct) (hdecoded : DecodedFrom fields wanted default (some node) default new)
    (hvisited : decodeRecord fields wanted default place node = .ok (result, unknown))
    (hreported : unknown.map ([name, ·]) ⊆ reported) :
    (node.isContainer ∨
      (∃ span written, node = .scalar span (.moment written)) ∧ [name, momentKey] ∈ reported) ∧
    ∀ step part, node.child? step = some part →
      IsSlot first 0 step ∧ read₁ part = some (get₁ new) ∨
      IsSlot second 1 step ∧ read₂ part = some (get₂ new) ∨
      (∃ key, step = .key key ∧ [name, key] ∈ reported) ∨
      ∃ index, 2 ≤ index ∧ step = .element index := by
  obtain ⟨other, names, h⟩ := hdecoded
  obtain rfl : names = unknown := decodeRecord_names h hvisited
  have hmem : ∀ key ∈ names, [name, key] ∈ reported := fun key hkey =>
    hreported (List.mem_map_of_mem hkey)
  refine ⟨(container_or_moment h).imp_right fun ⟨hmoment, hnames⟩ =>
    ⟨hmoment, hmem _ (by simp [hnames])⟩, fun step part hpart => ?_⟩
  rcases step_cases first second step with hstep | hstep | ⟨key, rfl, hkey⟩ | hbeyond
  · exact Or.inl ⟨hstep, read_of_child hfirst hnode h hstep hpart⟩
  · exact Or.inr (Or.inl ⟨hstep, read_of_child hsecond hnode h hstep hpart⟩)
  · have hunknown : key ∈ names := mem_unknown_of_child h ((hfields key).mpr hkey) hpart
    exact Or.inr (Or.inr (Or.inl ⟨key, rfl, hmem key hunknown⟩))
  · exact Or.inr (Or.inr (Or.inr hbeyond))

end

/-! ### Entries of the root -/

section

variable {table : Table} {config result : Config} {unknown : List (List String)}

/-- An entry of a document is visited, and what is reported of it is among all that is. -/
theorem visits_of_has (h : putTables table config = .ok (result, unknown)) {name : String}
    {node : Node} (hhas : table.Has name node) :
    ∃ key before after here, key.name = name ∧ Visits key node before after here ∧
      here ⊆ unknown := by
  induction table generalizing config unknown with
  | nil =>
      obtain ⟨key, hmem, -⟩ := hhas
      cases hmem
  | cons entry more ih =>
      obtain ⟨first, other⟩ := entry
      obtain ⟨next, here, later, hvisits, hlater, rfl⟩ := putTables_cons_ok h
      rcases Table.has_cons.mp hhas with ⟨hname, rfl⟩ | hmore
      · exact ⟨first, config, next, here, hname, hvisits, List.subset_append_left _ _⟩
      · obtain ⟨key, before, after, found, hname, hfound, hsubset⟩ := ih hlater hmore
        exact ⟨key, before, after, found, hname, hfound,
          List.Subset.trans hsubset (List.subset_append_right _ _)⟩

/-- No known key of the root is reported. -/
theorem root_not_reported (h : putTables table config = .ok (result, unknown)) {name : String}
    (hname : name ∈ ["greeting", "output"]) : [name] ∉ unknown := by
  induction table generalizing config unknown with
  | nil =>
      cases h
      exact List.not_mem_nil
  | cons entry more ih =>
      obtain ⟨key, node⟩ := entry
      obtain ⟨next, here, later, hvisits, hlater, rfl⟩ := putTables_cons_ok h
      refine List.not_mem_append ?_ (ih hlater)
      cases hvisits with
      | greeting | output => simp
      | unknown hgreeting houtput =>
          rcases List.mem_pair.mp hname with rfl | rfl
          · simpa using hgreeting.symm
          · simpa using houtput.symm

variable (htable : table.Distinct) (h : ofTable table = .ok (config, unknown)) {node : Node}

include htable h

/-- A key of the root that is not known is reported. -/
theorem root_reported {name : String} (hname : name ∉ ["greeting", "output"])
    (hnode : table.get? name = some node) : [name] ∈ unknown := by
  obtain ⟨key, _, _, here, rfl, hvisits, hsubset⟩ :=
    visits_of_has h ((Table.has_iff_get? htable.keys).mpr hnode)
  cases hvisits with
  | greeting hgreeting => exact absurd (by simp [hgreeting]) hname
  | output houtput => exact absurd (by simp [houtput]) hname
  | unknown => exact hsubset List.mem_cons_self

/-- What stands in place of a known table may stand there, and each of its parts is a field's, or
is reported, or is left over. -/
theorem known_accounts {name : String} (hname : name ∈ ["greeting", "output"])
    (hnode : table.get? name = some node) :
    (node.isContainer ∨
      (∃ span written, node = .scalar span (.moment written)) ∧ [name, momentKey] ∈ unknown) ∧
    ∀ step part, node.child? step = some part →
      GivesField config [.key name, step] part ∨
      (∃ key, step = .key key ∧ [name, key] ∈ unknown) ∨
      ∃ index, 2 ≤ index ∧ step = .element index := by
  obtain ⟨hgreeting, houtput⟩ := putTables_decoded htable.keys h
  obtain ⟨key, _, _, here, rfl, hvisits, hsubset⟩ :=
    visits_of_has h ((Table.has_iff_get? htable.keys).mpr hnode)
  have hdistinct := htable.of_get? hnode
  cases hvisits with
  | greeting hkey hrecord =>
      rw [hkey] at hnode hsubset ⊢
      rw [hnode] at hgreeting
      obtain ⟨hwhole, hparts⟩ := record_accounts (fun key => by
        rw [greetingFields_known, Bool.not_eq_true', ← Bool.not_eq_true, isKnown_greeting])
        takes_name takes_message hdistinct hgreeting hrecord hsubset
      refine ⟨hwhole, fun step part hpart => ?_⟩
      rcases hparts step part hpart with ⟨hstep, hread⟩ | ⟨hstep, hread⟩ | hrest
      · exact Or.inl (.name hstep (textOf?_eq_some_iff.mp hread))
      · exact Or.inl (.message hstep (textOf?_eq_some_iff.mp hread))
      · exact Or.inr hrest
  | output hkey hrecord =>
      rw [hkey] at hnode hsubset ⊢
      rw [hnode] at houtput
      obtain ⟨hwhole, hparts⟩ := record_accounts (fun key => by
        rw [outputFields_known, Bool.not_eq_true', ← Bool.not_eq_true, isKnown_output])
        takes_format takes_verbosity hdistinct houtput hrecord hsubset
      refine ⟨hwhole, fun step part hpart => ?_⟩
      rcases hparts step part hpart with ⟨hstep, hread⟩ | ⟨hstep, hread⟩ | hrest
      · exact Or.inl (.format hstep
          ((choiceOf?_eq_some_iff fun _ _ => Format.ofName?_eq_some_iff).mp hread))
      · exact Or.inl (.verbosity hstep
          ((choiceOf?_eq_some_iff fun _ _ => Verbosity.ofName?_eq_some_iff).mp hread))
      · exact Or.inr hrest
  | unknown hother hneither => simp [hother, hneither] at hname

end

/-! ### Whole documents -/

/-- A route to a field has two steps, and no element beyond the second is a field's. -/
theorem GivesField.route_eq {config : Config} {route : Route} {node : Node}
    (h : GivesField config route node) :
    ∃ name step, route = [.key name, step] ∧ ∀ index, step = .element index → index < 2 := by
  cases h with
  | name hstep | message hstep | format hstep | verbosity hstep =>
      refine ⟨_, _, rfl, fun index hindex => ?_⟩
      rcases hstep with rfl | rfl
      · cases hindex
      · cases hindex
        omega

/-- What is left over is neither used nor reported. -/
theorem not_accounted_of_surplus {table : Table} {config : Config} {unknown : List (List String)}
    (h : ofTable table = .ok (config, unknown)) {route : Route} (hsurplus : IsSurplus route) :
    ¬Accounted table config unknown route := by
  obtain ⟨name, hname, index, hindex, rest, rfl⟩ := hsurplus
  rintro (⟨hfront, -, hfield⟩ | ⟨hpath, hfront⟩)
  · obtain ⟨other, step, rfl, hstep⟩ := hfield.route_eq
    obtain ⟨-, hsame⟩ : other = name ∧ step = .element index := by
      simpa [List.cons_prefix_cons] using hfront
    have hbelow : index < 2 := hstep index hsame
    omega
  · rename_i path
    match path with
    | [] =>
      obtain ⟨table?, key, hpath⟩ := unknown_path h hpath
      cases table? <;> cases hpath
    | [key] =>
      have hkey : key = name := by simpa [List.cons_prefix_cons] using hfront
      rw [hkey] at hpath
      exact root_not_reported h hname hpath
    | first :: second :: more => simp [List.cons_prefix_cons] at hfront

/-- What is found in a known table is accounted for, unless it is left over. -/
theorem accounted_below {table : Table} (htable : table.Distinct) {config : Config}
    {unknown : List (List String)} (h : ofTable table = .ok (config, unknown)) {name : String}
    (hname : name ∈ ["greeting", "output"]) {step : Step} {rest : Route} {node : Node}
    (hnode : table.at? (.key name :: step :: rest) = some node)
    (hsurplus : ¬IsSurplus (.key name :: step :: rest)) :
    Accounted table config unknown (.key name :: step :: rest) := by
  obtain ⟨whole, hwhole, hnode⟩ := Option.bind_eq_some_iff.mp hnode
  obtain ⟨part, hpart, hnode⟩ := Option.bind_eq_some_iff.mp hnode
  have hfront : [.key name, step] <+: .key name :: step :: rest := ⟨rest, rfl⟩
  rcases (known_accounts htable h hname hwhole).2 step part hpart with
    hfield | ⟨key, rfl, hreported⟩ | ⟨index, hindex, rfl⟩
  · refine .used hfront ?_ hfield
    simp [Table.at?, Node.at?, hwhole, hpart]
  · exact .reported hreported hfront
  · exact absurd ⟨name, hname, index, hindex, hfront⟩ hsurplus

/-- **Every value of a document that loads is used or reported**, or left over of an array.  A
value below a known table is a field's, or part of one, or a reported path leads to it or to what
it is part of, and so it is with a value elsewhere; but the elements of an array in place of a
known table, from the third on, are dropped.  The value in place of a known table has parts of its
own, or it is a date or time, and then that is reported. -/
theorem load_accounts {files : Files} {file : Path} {config : Config} {warnings : List Warning}
    (h : load files file = .ok (config, warnings)) :
    ∃ content table unknown, files.readText file = .ok content ∧ document content = .ok table ∧
      ofTable table = .ok (config, unknown) ∧
      warnings = unknown.map (warn file (Text.lines content)) ∧
      (∀ name ∈ ["greeting", "output"], ∀ node, table.at? [.key name] = some node →
        node.isContainer ∨
          (∃ span written, node = .scalar span (.moment written)) ∧
            [name, momentKey] ∈ unknown) ∧
      ∀ route node, table.at? route = some node →
        (∀ name ∈ ["greeting", "output"], route ≠ [.key name]) →
        (Accounted table config unknown route ↔ ¬IsSurplus route) := by
  obtain ⟨content, table, unknown, htext, hdocument, htable, rfl⟩ := load_ok_cases h
  have hdistinct := document_distinct hdocument
  refine ⟨content, table, unknown, htext, hdocument, htable, rfl, fun name hname node hnode => ?_,
    fun route node hnode hroute => ⟨fun haccounted hsurplus =>
      not_accounted_of_surplus htable hsurplus haccounted, fun hsurplus => ?_⟩⟩
  · obtain ⟨whole, hwhole, hsame⟩ := Option.bind_eq_some_iff.mp hnode
    cases hsame
    exact (known_accounts hdistinct htable hname hwhole).1
  · match route with
    | [] => cases hnode
    | .element index :: rest => cases hnode
    | .key name :: rest =>
      by_cases hname : name ∈ ["greeting", "output"]
      · match rest with
        | [] => exact absurd rfl (hroute name hname)
        | step :: rest => exact accounted_below hdistinct htable hname hnode hsurplus
      · obtain ⟨whole, hwhole, -⟩ := Option.bind_eq_some_iff.mp hnode
        exact .reported (root_reported hdistinct htable hname hwhole) ⟨rest, rfl⟩

/-- An array for the greeting, a date for the output, and a key that is not known: the greeting's
elements are used, and both others are reported. -/
theorem load_accounts_of_array :
    let content := "greeting = ['a', 'b']\noutput = 2024-05-01\nodd.ity = [1]\n".toList
    let files : Files := fun _ => .file (Utf8.encode content)
    let config : Config := { greeting := ⟨"a", "b"⟩ }
    let date : Warning := ⟨momentKey, .ofString "greeter.toml", none, none⟩
    let odd : Warning := ⟨"odd", .ofString "greeter.toml", none, none⟩
    load files (.ofString "greeter.toml") = .ok (config, [date, odd]) ∧
    ∃ table unknown, document content = .ok table ∧ ["output", momentKey] ∈ unknown ∧
      Accounted table config unknown [.key "greeting", .element 1] ∧
      Accounted table config unknown [.key "odd", .key "ity", .element 0] := by
  intro content files config date odd
  have hload : load files (.ofString "greeter.toml") = .ok (config, [date, odd]) := by
    decide +kernel
  have htext : files.readText (.ofString "greeter.toml") = .ok content := by decide +kernel
  obtain ⟨read, table, unknown, hread, hdocument, -, -, hwhole, hparts⟩ := load_accounts hload
  obtain rfl : content = read := Except.ok.inj (htext.symm.trans hread)
  obtain ⟨found, hfound, ⟨output, houtput, hscalar⟩, hgreeting, hodd⟩ :
      ∃ found ∈ (document content).toOption,
        (∃ node ∈ found.at? [.key "output"], node.isContainer = false) ∧
        (found.at? [.key "greeting", .element 1]).isSome ∧
        (found.at? [.key "odd", .key "ity", .element 0]).isSome := by decide +kernel
  obtain rfl : table = found := Except.ok.inj (hdocument.symm.trans (ok_of_mem_toOption hfound))
  obtain ⟨_, hgreeting⟩ := Option.isSome_iff_exists.mp hgreeting
  obtain ⟨_, hodd⟩ := Option.isSome_iff_exists.mp hodd
  refine ⟨hload, table, unknown, hdocument, ?_, ?_, ?_⟩
  · rcases hwhole "output" (by simp) output houtput with hcontainer | ⟨-, hmem⟩
    · rw [hscalar] at hcontainer
      cases hcontainer
    · exact hmem
  · exact (hparts _ _ hgreeting (by simp)).mpr (by simp [IsSurplus, List.cons_prefix_cons])
  · exact (hparts _ _ hodd (by simp)).mpr (by simp [IsSurplus, List.cons_prefix_cons])

/-- The third element of an array for the greeting is not used, and nothing is reported. -/
theorem surplus_of_three :
    let content := "greeting = ['a', 'b', 'c']\n".toList
    let files : Files := fun _ => .file (Utf8.encode content)
    let config : Config := { greeting := ⟨"a", "b"⟩ }
    load files (.ofString "greeter.toml") = .ok (config, []) ∧
      ∃ table, document content = .ok table ∧
        (table.at? [.key "greeting", .element 2]).bind textOf? = some "c" ∧
        ¬Accounted table config [] [.key "greeting", .element 2] := by
  intro content files config
  obtain ⟨table, hdocument, hfound⟩ : ∃ table ∈ (document content).toOption,
      (table.at? [.key "greeting", .element 2]).bind textOf? = some "c" := by decide +kernel
  refine ⟨by decide +kernel, table, ok_of_mem_toOption hdocument, hfound, ?_⟩
  rintro (⟨hfront, -, hfield⟩ | ⟨hpath, -⟩)
  · obtain ⟨name, step, rfl, hstep⟩ := hfield.route_eq
    obtain ⟨-, rfl⟩ : name = "greeting" ∧ step = .element 2 := by
      simpa [List.cons_prefix_cons] using hfront
    exact absurd (hstep 2 rfl) (by decide)
  · cases hpath

end Config

end Salutation
