/-
What a document gives the fields of a configuration.

A document is decoded by going through its entries and putting each value into its field.
Seen from one field this is a lookup: the field gets what stands at its key, or at its place
if the table is written as an array, and otherwise keeps its default.  The two views agree
because no key stands twice, so what is put into a field is not put over by a later entry.

`Takes` is what the lookup needs to know about a list of fields: the one at some place gives
the part of the record in question, and the others leave that part alone.
-/
import Salutation.Config.Decode
import Salutation.Proofs.Toml.Basic

namespace Salutation.Config

open Toml

/-! ### Values -/

/-- The text that a value is. -/
def textOf? : Node → Option String
  | .scalar _ (.text s) => some s
  | _ => none

/-- The choice that a value names, by a text or as the only key of a table. -/
def choiceOf? {α : Type} (ofName? : String → Option α) : Node → Option α
  | .scalar _ (.text s) => ofName? s
  | .table _ [(key, below)] => if (belowName? below).isNone then ofName? key.name else none
  | _ => none

theorem decodeText_ok_iff {fallback : Span} {node : Node} {s : String} :
    decodeText fallback node = .ok s ↔ textOf? node = some s := by
  unfold decodeText textOf?
  split <;> simp

theorem decodeChoice_ok_iff {α : Type} {ofName? : String → Option α} {names : List String}
    {fallback : Span} {node : Node} {choice : α} :
    decodeChoice ofName? names fallback node = .ok choice ↔
      choiceOf? ofName? node = some choice := by
  unfold decodeChoice
  dsimp only
  split
  case h_1 s => cases hname : ofName? s <;> simp [choiceOf?, hname]
  case h_2 => simp [choiceOf?]
  case h_3 key below =>
    cases hname : ofName? key.name with
    | none => simp [choiceOf?, hname]
    | some named => cases hbelow : belowName? below <;> simp [choiceOf?, hname, hbelow]
  case h_4 entries hnone hone =>
    match entries with
    | [] => exact absurd rfl hnone
    | [(key, below)] => exact absurd rfl (hone key below)
    | _ :: _ :: _ => simp [choiceOf?]
  case h_5 htext hnone hone hmany =>
    match node with
    | .table origin entries => exact absurd rfl (hmany origin entries)
    | .array _ _ => simp [choiceOf?]
    | .tables _ => simp [choiceOf?]
    | .scalar span (.text s) => exact absurd rfl (htext span s)
    | .scalar _ (.integer _) => simp [choiceOf?]
    | .scalar _ (.number _) => simp [choiceOf?]
    | .scalar _ (.truth _) => simp [choiceOf?]
    | .scalar _ (.moment _) => simp [choiceOf?]

theorem map_eq_ok {ε α β : Type} {result : Except ε α} {f : α → β} {b : β} :
    result.map f = .ok b ↔ ∃ a, result = .ok a ∧ f a = b := by
  cases result <;> simp [Except.map]

/-! ### Fields -/

/-- A part of a record is what a given value is read as, or as it was if none is given. -/
def Sets {α : Type} (read : Node → Option α) (given? : Option Node) (old new : α) : Prop :=
  match given? with
  | some node => read node = some new
  | none => new = old

theorem Sets.eq_getD {α : Type} {read : Node → Option α} {given? : Option Node} {old new : α}
    (h : Sets read given? old new) : new = (given?.bind read).getD old := by
  cases given? with
  | none => exact h
  | some node =>
      have hread : read node = some new := h
      simp [hread]

section

variable {ρ α : Type}

/-- What is put into a field is a part of the record afterwards. -/
def Field.Gives (field : Field ρ) (get : ρ → α) (read : Node → Option α) : Prop :=
  ∀ place node record result, field.put place node record = .ok result →
    read node = some (get result)

/-- What is put into a field leaves a part of the record as it was. -/
def Field.Keeps (field : Field ρ) (get : ρ → α) : Prop :=
  ∀ place node record result, field.put place node record = .ok result →
    get result = get record

/-- A field whose value is decoded and then set gives what it sets. -/
theorem Field.gives_of_map {key : String} {decode : Span → Node → Decoded α}
    {set : ρ → α → ρ} {get : ρ → α} {read : Node → Option α}
    (hread : ∀ place node value, decode place node = .ok value → read node = some value)
    (hget : ∀ record value, get (set record value) = value) :
    Gives ⟨key, fun place node record => (decode place node).map (set record)⟩ get read := by
  intro place node record result h
  obtain ⟨value, hvalue, rfl⟩ := map_eq_ok.mp h
  rw [hget]
  exact hread place node value hvalue

/-- A field whose value is decoded and then set keeps what setting it keeps. -/
theorem Field.keeps_of_map {β : Type} {key : String} {decode : Span → Node → Decoded β}
    {set : ρ → β → ρ} {get : ρ → α} (hget : ∀ record value, get (set record value) = get record) :
    Keeps ⟨key, fun place node record => (decode place node).map (set record)⟩ get := by
  intro place node record result h
  obtain ⟨value, -, rfl⟩ := map_eq_ok.mp h
  exact hget record value

/-- The field at a place, which has the key, gives a part of the record; the others have
other keys and leave that part alone. -/
inductive Takes (get : ρ → α) (read : Node → Option α) (key : String) :
    List (Field ρ) → Nat → Prop where
  | here {field : Field ρ} {fields : List (Field ρ)} (hkey : field.key = key)
      (hgives : field.Gives get read)
      (hothers : ∀ other ∈ fields, other.key ≠ key ∧ other.Keeps get) :
      Takes get read key (field :: fields) 0
  | later {field : Field ρ} {fields : List (Field ρ)} {index : Nat}
      (hother : field.key ≠ key ∧ field.Keeps get) (h : Takes get read key fields index) :
      Takes get read key (field :: fields) (index + 1)

variable {get : ρ → α} {read : Node → Option α} {key : String} {fields : List (Field ρ)}
  {index : Nat}

theorem Takes.find?_eq_some (h : Takes get read key fields index) {name : String}
    {field : Field ρ} (hfind : fields.find? (·.key = name) = some field) :
    name = key ∧ field.Gives get read ∨ name ≠ key ∧ field.Keeps get := by
  induction h with
  | @here first fields hkey hgives hothers =>
      rw [List.find?_cons] at hfind
      split at hfind
      case h_1 hname =>
        cases hfind
        have hname : field.key = name := by simpa using hname
        exact Or.inl ⟨hname ▸ hkey, hgives⟩
      case h_2 =>
        obtain ⟨hne, hkeeps⟩ := hothers field (List.mem_of_find?_eq_some hfind)
        have hname : field.key = name := by simpa using List.find?_some hfind
        exact Or.inr ⟨hname ▸ hne, hkeeps⟩
  | @later first fields index hother h ih =>
      rw [List.find?_cons] at hfind
      split at hfind
      case h_1 hname =>
        cases hfind
        have hname : field.key = name := by simpa using hname
        exact Or.inr ⟨hname ▸ hother.1, hother.2⟩
      case h_2 => exact ih hfind

theorem Takes.find?_eq_none (h : Takes get read key fields index) {name : String}
    (hfind : fields.find? (·.key = name) = none) : name ≠ key := by
  rintro rfl
  rw [List.find?_eq_none] at hfind
  induction h with
  | here hkey => exact hfind _ List.mem_cons_self (by simpa using hkey)
  | later _ _ ih => exact ih fun field hmem => hfind field (List.mem_cons_of_mem _ hmem)

/-! ### Tables -/

/-- The entries of a table set the field that has the key. -/
theorem putEntries_sets (htakes : Takes get read key fields index) {table : Table}
    {record result : ρ} {unknown : List String} (hkeys : table.names.Nodup)
    (h : putEntries fields table record = .ok (result, unknown)) :
    Sets read (table.get? key) (get record) (get result) := by
  induction table generalizing record unknown with
  | nil =>
      cases h
      exact rfl
  | cons entry more ih =>
      obtain ⟨first, node⟩ := entry
      obtain ⟨hfresh, hmore⟩ : first.name ∉ Table.names more ∧ (Table.names more).Nodup := by
        simpa [Table.names] using hkeys
      rw [Table.get?_cons]
      unfold putEntries at h
      split at h
      case h_1 field hfind =>
        split at h
        case h_1 next hput =>
          have hlater := ih hmore h
          rcases htakes.find?_eq_some hfind with ⟨hname, hgives⟩ | ⟨hname, hkeeps⟩
          · rw [if_pos hname]
            rw [Table.get?_eq_none_iff.mpr (hname ▸ hfresh)] at hlater
            have hsame : get result = get next := hlater
            show read node = some (get result)
            rw [hsame]
            exact hgives _ _ _ _ hput
          · rw [if_neg hname, ← hkeeps _ _ _ _ hput]
            exact hlater
        case h_2 => cases h
      case h_2 hfind =>
        split at h
        case h_1 hput =>
          cases h
          rw [if_neg (htakes.find?_eq_none hfind)]
          exact ih hmore hput
        case h_2 => cases h

theorem putElements_keeps {fallback : Span} {fields : List (Field ρ)}
    (hkeeps : ∀ field ∈ fields, field.Keeps get) {nodes : List Node} {record result : ρ}
    (h : putElements fallback fields nodes record = .ok result) : get result = get record := by
  induction fields generalizing nodes record with
  | nil =>
      cases h
      rfl
  | cons field more ih =>
      cases nodes with
      | nil =>
          cases h
          rfl
      | cons node nodes =>
          unfold putElements at h
          split at h
          case h_1 next hput =>
            rw [ih (fun field hmem => hkeeps field (List.mem_cons_of_mem _ hmem)) h,
              hkeeps field List.mem_cons_self _ _ _ _ hput]
          case h_2 => cases h

/-- The elements of an array set the field at their place. -/
theorem putElements_sets {fallback : Span} (htakes : Takes get read key fields index)
    {nodes : List Node} {record result : ρ}
    (h : putElements fallback fields nodes record = .ok result) :
    Sets read nodes[index]? (get record) (get result) := by
  induction htakes generalizing nodes record with
  | here hkey hgives hothers =>
      cases nodes with
      | nil =>
          cases h
          exact rfl
      | cons node nodes =>
          unfold putElements at h
          split at h
          case h_1 next hput =>
            have hsame := putElements_keeps (fun other hmem => (hothers other hmem).2) h
            show read node = some (get result)
            rw [hsame]
            exact hgives _ _ _ _ hput
          case h_2 => cases h
  | later hother _ ih =>
      cases nodes with
      | nil =>
          cases h
          exact rfl
      | cons node nodes =>
          unfold putElements at h
          split at h
          case h_1 next hput =>
            rw [← hother.2 _ _ _ _ hput]
            exact ih h
          case h_2 => cases h

/-- What a field takes from the value of its table: an entry of a table by its key, or an
element of an array by its place. -/
def part? (index : Nat) (key : String) : Node → Option Node
  | .table _ entries => Table.get? entries key
  | .array _ nodes => nodes[index]?
  | .tables elements => elements[index]?.map fun (span, entries) => .table (.header span) entries
  | .scalar _ _ => none

/-- **A field is set by what its table gives it, however the table is written.** -/
theorem decodeRecord_sets {wanted : Wanted} {default result : ρ} {fallback : Span} {node : Node}
    {unknown : List String} (htakes : Takes get read key fields index) (hnode : node.Distinct)
    (h : decodeRecord fields wanted default fallback node = .ok (result, unknown)) :
    Sets read (part? index key node) (get default) (get result) := by
  unfold decodeRecord at h
  dsimp only at h
  split at h
  case h_1 entries => exact putEntries_sets htakes (Node.distinct_table_iff.mp hnode).keys h
  case h_2 nodes =>
    obtain ⟨_, hput, hresult⟩ := map_eq_ok.mp h
    cases hresult
    exact putElements_sets htakes hput
  case h_3 elements =>
    obtain ⟨_, hput, hresult⟩ := map_eq_ok.mp h
    cases hresult
    have hsets := putElements_sets htakes hput
    rwa [List.getElem?_map] at hsets
  case h_4 =>
    cases h
    exact rfl
  case h_5 => cases h

end

/-! ### Entries of a document -/

/-- What a configuration becomes by one entry of a document, and what is reported of it: the
unknown keys of a table that is known, or else the key of the entry. -/
inductive Visits (key : Key) (node : Node) (config : Config) :
    Config → List (List String) → Prop where
  | greeting {greeting : Greeting} {names : List String} (hname : key.name = "greeting")
      (hrecord : decodeRecord greetingFields .greeting {} key.span node = .ok (greeting, names)) :
      Visits key node config { config with greeting := greeting } (names.map ([key.name, ·]))
  | output {output : Output} {names : List String} (hname : key.name = "output")
      (hrecord : decodeRecord outputFields .output {} key.span node = .ok (output, names)) :
      Visits key node config { config with output := output } (names.map ([key.name, ·]))
  | unknown (hgreeting : key.name ≠ "greeting") (houtput : key.name ≠ "output") :
      Visits key node config config [[key.name]]

/-- A document that decodes is visited entry by entry. -/
theorem putTables_cons_ok {key : Key} {node : Node} {more : Table} {config result : Config}
    {unknown : List (List String)}
    (h : putTables ((key, node) :: more) config = .ok (result, unknown)) :
    ∃ next here later, Visits key node config next here ∧
      putTables more next = .ok (result, later) ∧ unknown = here ++ later := by
  unfold putTables at h
  dsimp only at h
  split at h
  case h_1 => cases h
  case h_2 next here hdecoded =>
    split at h
    case h_2 => cases h
    case h_1 later hlater =>
      cases h
      refine ⟨next, here, _, ?_, hlater, rfl⟩
      split at hdecoded
      case isTrue hname =>
        obtain ⟨_, hrecord, hresult⟩ := map_eq_ok.mp hdecoded
        cases hresult
        exact .greeting hname hrecord
      case isFalse hgreeting =>
        split at hdecoded
        case isTrue hname =>
          obtain ⟨_, hrecord, hresult⟩ := map_eq_ok.mp hdecoded
          cases hresult
          exact .output hname hrecord
        case isFalse houtput =>
          cases hdecoded
          exact .unknown hgreeting houtput

end Salutation.Config
