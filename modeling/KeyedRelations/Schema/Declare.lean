import KeyedRelations.Record
import KeyedRelations.Schema

/-!
# Declaring schemas

A schema can be declared by texts of blank-separated words, by a list of columns in several forms,
or by a record. What is not one of these forms is refused as it is.
-/

namespace KeyedRelations

/-- The domain that a name declares. -/
def Domain.ofName (name : String) : Except Fault Domain :=
  match Domain.ofName? name with
  | some d => .ok d
  | none => .error (.definition (.unknownDomain name))

/-- Domains as a caller declares them. -/
inductive DomainSource where
  | text (words : String)
  | list (domains : List Domain)

def DomainSource.domains : DomainSource → Except Fault (List Domain)
  | .text s => (Text.words s).mapM Domain.ofName
  | .list domains => .ok domains

/-- A column as a caller declares it. -/
inductive ColumnSource where
  | column (c : Column)
  /-- A pair of texts, a record, or something that is not a column. -/
  | value (v : Value)

/-- Accepts a pair of a name and the name of a domain, or the record of a column. -/
def Column.declare : ColumnSource → Except Fault Column
  | .column c => .ok c
  | .value v =>
    match v with
    | .list [.text name, .text domain] | .tuple [.text name, .text domain] => do
      return ⟨name, ← Domain.ofName domain⟩
    | .dict _ => Recordable.accept Column v
    | _ => .error (.definition (.notAColumn v))

/-- A key as a caller declares it. -/
inductive KeySource where
  | text (words : String)
  | list (names : List String)

def KeySource.attributes : KeySource → List String
  | .text s => Text.words s
  | .list names => names

namespace Schema

/-- The schema of columns in any form. Every column is accepted before the first check of the
whole. -/
def declare (columns : List ColumnSource) (key : KeySource) : Except Fault Schema := do
  define (← columns.mapM Column.declare) key.attributes

/-- The schema of three texts: attribute names, domain names and key attributes. -/
def ofWords (attributes domains key : String) : Except Fault Schema := do
  let names := Text.words attributes
  let kinds := Text.words domains
  if names.length ≠ kinds.length then
    throw (.definition (.domainCount names.length kinds.length))
  let columns ← (names.zip kinds).mapM fun (name, kind) => do
    return ⟨name, ← Domain.ofName kind⟩
  define columns (Text.words key)

/-- The schema of a record. -/
def ofRecord (r : SchemaRecord) : Except Fault Schema := define r.columns r.key

/-- The record of a schema. -/
def toRecord (schema : Schema) : SchemaRecord := ⟨schema.columns, schema.key⟩

end Schema

/-- A schema as a caller gives it. -/
inductive SchemaSource where
  | schema (s : Schema)
  | record (r : SchemaRecord)
  /-- The record of a schema in plain form, or something that is not a schema. -/
  | value (v : Value)

def Schema.accept : SchemaSource → Except Fault Schema
  | .schema s => .ok s
  | .record r => Schema.ofRecord r
  | .value v =>
    match v with
    | .dict _ => do Schema.ofRecord (← Recordable.accept SchemaRecord v)
    | _ => .error (.definition (.notASchema v))

end KeyedRelations
