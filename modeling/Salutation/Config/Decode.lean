/-
From a document to a configuration.

The keys of a table are visited in order.  A known key gives its field a value, an unknown
one is noted and not looked into, and the first misfit ends it all.  A field that no key
gives keeps its default.

A table of the configuration may also be written as an array: its elements give the fields
in order, and what is left over counts for nothing.  A date or time in its place is a table
with one key of its own, which is unknown.  A name may also be written as a table with the
name as its only key and nothing below it.
-/
import Salutation.Config
import Salutation.Config.Misfit

namespace Salutation.Config

open Toml

/-- A value for a field, or why there is none. -/
abbrev Decoded (α : Type) := Except Misfit α

/-- Where a value stands, or else the place given for it. -/
def placeOf (fallback : Span) (node : Node) : Span := node.span?.getD fallback

/-- A text. -/
def decodeText (fallback : Span) (node : Node) : Decoded String :=
  match node with
  | .scalar _ (.text s) => .ok s
  | _ => .error ⟨placeOf fallback node, .wrongKind (describe node) .text⟩

/-- Why a value may not stand below a name, if it may not. -/
def belowName? : Node → Option Complaint
  | .table _ [] => none
  | .table _ _ => some .notEmptyTable
  | .array _ [] => none
  | .array _ _ => some .notEmptyTable
  | .tables [] => none
  | .tables _ => some .notEmptyArray
  | node => some (.notATable node.kind)

/-- One of several named choices. -/
def decodeChoice {α : Type} (ofName? : String → Option α) (names : List String)
    (fallback : Span) (node : Node) : Decoded α :=
  let place := placeOf fallback node
  match node with
  | .scalar _ (.text s) =>
    match ofName? s with
    | some choice => .ok choice
    | none => .error ⟨place, .unknownName s names⟩
  | .table _ [] => .error ⟨place, .noName⟩
  | .table _ [(key, below)] =>
    match ofName? key.name with
    | none => .error ⟨key.span, .unknownName key.name names⟩
    | some choice =>
      match belowName? below with
      | none => .ok choice
      | some complaint => .error ⟨placeOf place below, complaint⟩
  | .table _ _ => .error ⟨place, .manyNames⟩
  | _ => .error ⟨place, .notAName⟩

/-- A field of a table of the configuration: its key, and how a value is put into it. -/
structure Field (ρ : Type) where
  key : String
  put : Span → Node → ρ → Decoded ρ

/-- The fields of what is said. -/
def greetingFields : List (Field Greeting) := [
  ⟨"name", fun place node g => (decodeText place node).map fun s => { g with name := s }⟩,
  ⟨"message", fun place node g => (decodeText place node).map fun s => { g with message := s }⟩]

/-- The fields of how it is said. -/
def outputFields : List (Field Output) := [
  ⟨"format", fun place node o =>
    (decodeChoice Format.ofName? (Format.all.map Format.name) place node).map fun f =>
      { o with format := f }⟩,
  ⟨"verbosity", fun place node o =>
    (decodeChoice Verbosity.ofName? (Verbosity.all.map Verbosity.name) place node).map fun v =>
      { o with verbosity := v }⟩]

/-- Puts the values of a table into the fields, in the table's order; also gives the unknown
keys, in the same order. -/
def putEntries {ρ : Type} (fields : List (Field ρ)) : Table → ρ → Decoded (ρ × List String)
  | [], record => .ok (record, [])
  | (key, node) :: more, record =>
    match fields.find? (·.key = key.name) with
    | some field =>
      match field.put key.span node record with
      | .ok record => putEntries fields more record
      | .error misfit => .error misfit
    | none =>
      match putEntries fields more record with
      | .ok (record, unknown) => .ok (record, key.name :: unknown)
      | .error misfit => .error misfit

/-- Puts the elements of an array into the fields, in the fields' order. -/
def putElements {ρ : Type} (fallback : Span) : List (Field ρ) → List Node → ρ → Decoded ρ
  | field :: fields, node :: nodes, record =>
    match field.put fallback node record with
    | .ok record => putElements fallback fields nodes record
    | .error misfit => .error misfit
  | _, _, record => .ok record

/-- The key of a date or time that stands in place of a table. -/
def momentKey : String := "$__toml_private_datetime"

/-- A table of the configuration, and the unknown keys in it. -/
def decodeRecord {ρ : Type} (fields : List (Field ρ)) (wanted : Wanted) (default : ρ)
    (fallback : Span) (node : Node) : Decoded (ρ × List String) :=
  let place := placeOf fallback node
  match node with
  | .table _ entries => putEntries fields entries default
  | .array _ nodes => (putElements place fields nodes default).map (·, [])
  | .tables elements =>
    let nodes := elements.map fun (span, entries) => Node.table (.header span) entries
    (putElements place fields nodes default).map (·, [])
  | .scalar _ (.moment _) => .ok (default, [momentKey])
  | _ => .error ⟨place, .wrongKind (describe node) wanted⟩

/-- Puts the tables of a document into a configuration, in the document's order; also gives
the paths of the unknown keys, in the same order. -/
def putTables : Table → Config → Decoded (Config × List (List String))
  | [], config => .ok (config, [])
  | (key, node) :: more, config =>
    let decoded : Decoded (Config × List (List String)) :=
      if key.name = "greeting" then
        (decodeRecord greetingFields .greeting {} key.span node).map fun (g, unknown) =>
          ({ config with greeting := g }, unknown.map fun k => [key.name, k])
      else if key.name = "output" then
        (decodeRecord outputFields .output {} key.span node).map fun (o, unknown) =>
          ({ config with output := o }, unknown.map fun k => [key.name, k])
      else .ok (config, [[key.name]])
    match decoded with
    | .error misfit => .error misfit
    | .ok (config, here) =>
      match putTables more config with
      | .ok (config, later) => .ok (config, here ++ later)
      | .error misfit => .error misfit

/-- The configuration that a document describes, and the paths of its unknown keys. -/
def ofTable (table : Table) : Decoded (Config × List (List String)) := putTables table {}

end Salutation.Config
