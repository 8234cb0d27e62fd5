/-
The layer of the file.

A configuration is made of layers, each of which sets some of the four fields.  What the
file sets is said here by lookups in the document: `Layer.ofTable` does not go through the
entries in order, and it cannot fail.  `ofTable_eq` is the bridge: when a document decodes,
the configuration has in each field what the lookup finds, and the default where it finds
nothing.
-/
import Salutation.Config.Discovery
import Salutation.Proofs.Config.Decode
import Salutation.Proofs.Toml.Distinct

namespace Salutation.Config

open Toml

/-- Values for some of the fields of a configuration. -/
structure Layer where
  name : Option String := none
  message : Option String := none
  format : Option Format := none
  verbosity : Option Verbosity := none

/-- A configuration with the fields replaced that a layer sets. -/
def Layer.over (layer : Layer) (config : Config) : Config where
  greeting := {
    name := layer.name.getD config.greeting.name
    message := layer.message.getD config.greeting.message }
  output := {
    format := layer.format.getD config.output.format
    verbosity := layer.verbosity.getD config.output.verbosity }

/-- The defaults with the fields replaced that a layer sets. -/
def Layer.toConfig (layer : Layer) : Config := layer.over {}

/-- What a document sets. -/
def Layer.ofTable (table : Table) : Layer where
  name := ((table.get? "greeting").bind (part? 0 "name")).bind textOf?
  message := ((table.get? "greeting").bind (part? 1 "message")).bind textOf?
  format := ((table.get? "output").bind (part? 0 "format")).bind (choiceOf? Format.ofName?)
  verbosity :=
    ((table.get? "output").bind (part? 1 "verbosity")).bind (choiceOf? Verbosity.ofName?)

/-- What the text of a file sets; nothing, if it is no document. -/
def Layer.ofText (text : List Char) : Layer :=
  match document text with
  | .ok table => .ofTable table
  | .error _ => {}

/-- What a file sets, if there is one. -/
def Layer.ofFile (files : Files) (file? : Option Path) : Layer :=
  match file?.map files.readText with
  | some (.ok text) => .ofText text
  | _ => {}

/-! ### The four fields -/

theorem takes_name : Takes Greeting.name textOf? "name" greetingFields 0 := by
  refine .here rfl (Field.gives_of_map (fun _ _ _ => decodeText_ok_iff.mp) fun _ _ => rfl) ?_
  rw [List.forall_mem_singleton]
  exact ⟨by decide, Field.keeps_of_map fun _ _ => rfl⟩

theorem takes_message : Takes Greeting.message textOf? "message" greetingFields 1 := by
  refine .later ⟨by decide, Field.keeps_of_map fun _ _ => rfl⟩ (.here rfl ?_ (by simp))
  exact Field.gives_of_map (fun _ _ _ => decodeText_ok_iff.mp) fun _ _ => rfl

theorem takes_format :
    Takes Output.format (choiceOf? Format.ofName?) "format" outputFields 0 := by
  refine .here rfl (Field.gives_of_map (fun _ _ _ => decodeChoice_ok_iff.mp) fun _ _ => rfl) ?_
  rw [List.forall_mem_singleton]
  exact ⟨by decide, Field.keeps_of_map fun _ _ => rfl⟩

theorem takes_verbosity :
    Takes Output.verbosity (choiceOf? Verbosity.ofName?) "verbosity" outputFields 1 := by
  refine .later ⟨by decide, Field.keeps_of_map fun _ _ => rfl⟩ (.here rfl ?_ (by simp))
  exact Field.gives_of_map (fun _ _ _ => decodeChoice_ok_iff.mp) fun _ _ => rfl

/-! ### Documents -/

/-- A record of a configuration is the one decoded from its table, or as it was if there is
none. -/
def DecodedFrom {ρ : Type} (fields : List (Field ρ)) (wanted : Wanted) (default : ρ)
    (node? : Option Node) (old new : ρ) : Prop :=
  match node? with
  | some node => ∃ place unknown, decodeRecord fields wanted default place node = .ok (new, unknown)
  | none => new = old

/-- With distinct keys, each table of a document is decoded once and for all. -/
theorem putTables_decoded {table : Table} {config result : Config} {unknown : List (List String)}
    (hkeys : table.names.Nodup) (h : putTables table config = .ok (result, unknown)) :
    DecodedFrom greetingFields .greeting {} (table.get? "greeting") config.greeting
        result.greeting ∧
      DecodedFrom outputFields .output {} (table.get? "output") config.output result.output := by
  induction table generalizing config unknown with
  | nil =>
      cases h
      exact ⟨rfl, rfl⟩
  | cons entry more ih =>
      obtain ⟨key, node⟩ := entry
      obtain ⟨hfresh, hmore⟩ : key.name ∉ Table.names more ∧ (Table.names more).Nodup := by
        simpa [Table.names] using hkeys
      have habsent : ∀ name, key.name = name → Table.get? more name = none := by
        rintro name rfl
        exact Table.get?_eq_none_iff.mpr hfresh
      obtain ⟨next, here, later, hvisits, hlater, rfl⟩ := putTables_cons_ok h
      obtain ⟨hgreeting, houtput⟩ := ih hmore hlater
      rw [Table.get?_cons, Table.get?_cons]
      cases hvisits with
      | @greeting g names hname hrecord =>
          rw [if_pos hname, if_neg (by rw [hname]; decide)]
          -- No later entry has this key, so what was decoded here stays.
          rw [habsent _ hname] at hgreeting
          refine ⟨⟨key.span, names, ?_⟩, houtput⟩
          rw [show result.greeting = g from hgreeting]
          exact hrecord
      | @output o names hname hrecord =>
          rw [if_neg (by rw [hname]; decide), if_pos hname]
          rw [habsent _ hname] at houtput
          refine ⟨hgreeting, ⟨key.span, names, ?_⟩⟩
          rw [show result.output = o from houtput]
          exact hrecord
      | unknown hother hneither =>
          rw [if_neg hother, if_neg hneither]
          exact ⟨hgreeting, houtput⟩

/-- A part of a decoded record is what the record's table gives it, or its default. -/
theorem DecodedFrom.eq_getD {ρ α : Type} {fields : List (Field ρ)} {wanted : Wanted}
    {default new : ρ} {table : Table} {name : String}
    (h : DecodedFrom fields wanted default (table.get? name) default new)
    (htable : table.Distinct) {get : ρ → α} {read : Node → Option α} {key : String} {index : Nat}
    (htakes : Takes get read key fields index) :
    get new = (((table.get? name).bind (part? index key)).bind read).getD (get default) := by
  cases hnode : table.get? name with
  | none =>
      rw [hnode] at h
      rw [show new = default from h]
      rfl
  | some node =>
      rw [hnode] at h
      obtain ⟨place, unknown, hrecord⟩ := h
      exact (decodeRecord_sets htakes (htable.of_get? hnode) hrecord).eq_getD

/-- **A document that decodes makes a configuration of the fields that it sets.** -/
theorem ofTable_eq {table : Table} {config : Config} {unknown : List (List String)}
    (htable : table.Distinct) (h : ofTable table = .ok (config, unknown)) :
    config = (Layer.ofTable table).toConfig := by
  obtain ⟨hgreeting, houtput⟩ := putTables_decoded htable.keys h
  obtain ⟨⟨name, message⟩, ⟨format, verbosity⟩⟩ := config
  have hname : name = _ := hgreeting.eq_getD htable takes_name
  have hmessage : message = _ := hgreeting.eq_getD htable takes_message
  have hformat : format = _ := houtput.eq_getD htable takes_format
  have hverbosity : verbosity = _ := houtput.eq_getD htable takes_verbosity
  rw [hname, hmessage, hformat, hverbosity]
  rfl

/-! ### Files -/

/-- A file that loads makes a configuration of the fields that it sets. -/
theorem load_eq {files : Files} {file : Path} {config : Config} {warnings : List Warning}
    (h : load files file = .ok (config, warnings)) :
    config = (Layer.ofFile files (some file)).toConfig := by
  unfold load at h
  split at h
  case h_1 => cases h
  case h_2 text htext =>
    unfold parse at h
    split at h
    case h_1 => cases h
    case h_2 config unknown hparsed =>
      cases h
      unfold ofText at hparsed
      split at hparsed
      case h_1 => cases hparsed
      case h_2 table hdocument =>
        split at hparsed
        case h_1 => cases hparsed
        case h_2 hdecoded =>
          cases hparsed
          have hlayer : Layer.ofFile files (some file) = Layer.ofTable table := by
            simp [Layer.ofFile, Layer.ofText, htext, hdocument]
          rw [hlayer]
          exact ofTable_eq (document_distinct hdocument) hdecoded

theorem loadFrom_eq {files : Files} {source : Path → Source} {file : Path} {loaded : Loaded}
    (hsource : (source file).path? = some file) (h : loadFrom files source file = .ok loaded) :
    loaded.config = (Layer.ofFile files loaded.source.path?).toConfig := by
  unfold loadFrom at h
  split at h
  case h_1 config warnings hload =>
    cases h
    rw [hsource]
    exact load_eq hload
  case h_2 => cases h

/-- **What is found has the fields that the selected file sets**, and defaults otherwise; all
of them are defaults if no file is selected. -/
theorem discover_eq {files : Files} {environment : Environment} {explicit? : Option Path}
    {root : Path} {loaded : Loaded} (h : discover files environment explicit? root = .ok loaded) :
    loaded.config = (Layer.ofFile files loaded.source.path?).toConfig := by
  unfold discover at h
  split at h
  case h_1 =>
    split at h
    case isTrue => exact loadFrom_eq rfl h
    case isFalse => cases h
  case h_2 =>
    split at h
    case isTrue => exact loadFrom_eq rfl h
    case isFalse =>
      split at h
      case h_1 =>
        split at h
        case isTrue => exact loadFrom_eq rfl h
        case isFalse =>
          cases h
          rfl
      case h_2 =>
        cases h
        rfl

/-- The search reads three variables. -/
theorem discover_congr {files : Files} {environment other : Environment}
    {explicit? : Option Path} {root : Path}
    (h : ∀ name ∈ [configHomeVariable, "XDG_CONFIG_HOME", "HOME"],
      environment name = other name) :
    discover files environment explicit? root = discover files other explicit? root := by
  have hhome := h configHomeVariable (by simp)
  have hdesktop := h "XDG_CONFIG_HOME" (by simp)
  have huser := h "HOME" (by simp)
  have hpath : userPath? environment = userPath? other := by
    unfold userPath? desktopConfigHome? desktopConfigHome?.home? Environment.text?
    rw [hhome, hdesktop, huser]
  unfold discover
  rw [hpath]

end Salutation.Config
