import KeyedRelations.Condition
import KeyedRelations.MsgPack.Decode
import KeyedRelations.Schema
import KeyedRelations.Text.Base64

/-!
# Records

Columns, schemas, tables, keys and comparisons have a form as a record: a dictionary with one entry
for each field, in a fixed order. A record can be written as a binary document, read back from
one, and accepted as a value from a caller. In both directions every field has to be there with a
value of its type, and further fields are ignored.
-/

namespace KeyedRelations

/-- The columns and the key of a schema that need not be well formed. -/
structure SchemaRecord where
  columns : List Column
  key : List String
  deriving DecidableEq

/-- A whole table as a document holds it. -/
structure Snapshot where
  name : String
  schema : SchemaRecord
  rows : List Row

namespace Value

/-- Whether a value is the given text. -/
def isText (name : String) : Value → Bool
  | .text s => s == name
  | _ => false

/-- The value of a field. -/
def field? (name : String) (entries : List (Value × Value)) : Option Value :=
  (entries.find? fun e => e.1.isText name).map (·.2)

/-- The fields of a value that can be taken for a record: all its keys are texts. -/
def fields? : Value → Option (List (Value × Value))
  | .dict entries => if entries.all (·.1 matches .text _) then some entries else none
  | _ => none

def text? : Value → Option String
  | .text s => some s
  | _ => none

/-- The items of a sequence. -/
def items? : Value → Option (List Value)
  | .list items | .tuple items => some items
  | _ => none

mutual

/-- The value with byte strings in base 64, instants as texts and keys as records, as plain
documents hold it. -/
def simplified : Value → Except Fault Value
  | .bytes data => .ok (.text (Text.base64 data))
  | .instant t => .ok (.text t.text)
  | .list items => do return .list (← simplifiedAll items)
  | .tuple items => do return .tuple (← simplifiedAll items)
  | .dict entries => do return .dict (← simplifiedEntries [] entries)
  | .key values => do return .dict [(.text "values", .list (← simplifiedAll values))]
  | .extension _ _ => .error (.notPlain "msgspec.msgpack.Ext")
  | v => .ok v

def simplifiedAll : List Value → Except Fault (List Value)
  | [] => .ok []
  | v :: vs => do return (← v.simplified) :: (← simplifiedAll vs)

/-- The entries of a dictionary after those that are done. Keys may become equal. -/
def simplifiedEntries (done : List (Value × Value)) :
    List (Value × Value) → Except Fault (List (Value × Value))
  | [] => .ok done
  | (k, v) :: rest => do
    let k ← k.simplified
    let v ← v.simplified
    match k.unhashableKind? with
    | some kind => throw (.unhashable kind)
    | none => simplifiedEntries (setEntry k v done) rest

end

end Value

/-- A dictionary with the given fields. -/
def recordOf (fields : List (String × Value)) : Value :=
  .dict (fields.map fun (name, v) => (.text name, v))

/-- Types whose values have a form as a record. -/
class Recordable (α : Type) where
  /-- The record of a value. -/
  record : α → Value
  /-- Reads a record from a binary document, with room for so many levels in values of any type. -/
  read : (levels : Nat) → MsgPack.Reader α
  /-- The value of a record that a caller gives. -/
  ofRecord? : Value → Option α

namespace Recordable

variable {α : Type} [Recordable α]

/-- The binary document of a value. -/
def encode (room : MsgPack.Room) (x : α) : Except Fault MsgPack.Bytes :=
  MsgPack.encode room.writing (record x)

/-- Reads a binary document. -/
def decode (α : Type) [Recordable α] (room : MsgPack.Room) (bytes : MsgPack.Bytes) :
    Except Fault α :=
  MsgPack.Reader.readAll (read room.reading : MsgPack.Reader α) bytes

/-- Accepts a value from a caller. -/
def accept (α : Type) [Recordable α] (v : Value) : Except Fault α :=
  match ofRecord? v with
  | some x => .ok x
  | none => .error (.document .illTyped)

/-- The record of a value in plain form. -/
def plainRecord (x : α) : Except Fault Value := (record x).simplified

end Recordable

open MsgPack (Reader)

instance : Recordable Column where
  record c := recordOf [("name", .text c.name), ("domain", .text c.domain.tag)]
  read levels :=
    Reader.record levels (none, none)
      [("name", fun found => do return (some (← Reader.text), found.2)),
        ("domain", fun found => do return (found.1, some (← Reader.word Domain.ofTag?)))]
      fun (name, domain) => do return ⟨← name, ← domain⟩
  ofRecord? v := do
    let entries ← v.fields?
    let name ← (← Value.field? "name" entries).text?
    let domain ← Domain.ofTag? (← (← Value.field? "domain" entries).text?)
    return ⟨name, domain⟩

instance : Recordable SchemaRecord where
  record s :=
    recordOf
      [("columns", .list (s.columns.map Recordable.record)), ("key", .list (s.key.map .text))]
  read levels :=
    Reader.record levels (none, none)
      [("columns", fun found => do return (some (← Reader.list (Recordable.read levels)), found.2)),
        ("key", fun found => do return (found.1, some (← Reader.list Reader.text)))]
      fun (columns, key) => do return ⟨← columns, ← key⟩
  ofRecord? v := do
    let entries ← v.fields?
    let columns ← (← (← Value.field? "columns" entries).items?).mapM Recordable.ofRecord?
    let key ← (← (← Value.field? "key" entries).items?).mapM Value.text?
    return ⟨columns, key⟩

instance : Recordable Snapshot where
  record s :=
    recordOf
      [("name", .text s.name), ("schema", Recordable.record s.schema),
        ("rows", .list (s.rows.map Row.toValue))]
  read levels :=
    Reader.record levels (none, none, none)
      [("name", fun (_, schema, rows) => do return (some (← Reader.text), schema, rows)),
        ("schema", fun (name, _, rows) => do return (name, some (← Recordable.read levels), rows)),
        ("rows", fun (name, schema, _) => do
          let rows ← Reader.list (Reader.list (Reader.value levels))
          return (name, schema, some (rows.map .tuple)))]
      fun (name, schema, rows) => do return ⟨← name, ← schema, ← rows⟩
  ofRecord? v := do
    let entries ← v.fields?
    let name ← (← Value.field? "name" entries).text?
    let schema ← Recordable.ofRecord? (← Value.field? "schema" entries)
    let rows ← (← (← Value.field? "rows" entries).items?).mapM Value.items?
    return ⟨name, schema, rows.map .tuple⟩

/-- A key as a record of its own. -/
structure KeyRecord where
  values : Key

instance : Recordable KeyRecord where
  record k := recordOf [("values", .list k.values)]
  read levels :=
    Reader.record levels none [("values", fun _ => do return some (← Reader.list (Reader.value levels)))]
      fun values => do return ⟨← values⟩
  ofRecord?
    | .key values => some ⟨values⟩
    | v => do
      let entries ← v.fields?
      return ⟨← (← Value.field? "values" entries).items?⟩

namespace Operand

def ofValue? : Value → Option Operand
  | .text name => some (.attribute name)
  | .int n => some (.literal n)
  | _ => none

def read : Reader Operand := do
  match ← Reader.head with
  | .text data => return .attribute (← Reader.utf8 data)
  | .int n => return .literal n
  | _ => Reader.illTyped

end Operand

instance : Recordable Comparison where
  record c :=
    recordOf
      [("left", .text c.left), ("op", .text c.operator.symbol), ("right", c.right.toValue)]
  read levels :=
    Reader.record levels (none, none, none)
      [("left", fun (_, op, right) => do return (some (← Reader.text), op, right)),
        ("op", fun (left, _, right) => do
          return (left, some (← Reader.word Operator.ofSymbol?), right)),
        ("right", fun (left, op, _) => do return (left, op, some (← Operand.read)))]
      fun (left, op, right) => do return ⟨← left, ← op, ← right⟩
  ofRecord? v := do
    let entries ← v.fields?
    let left ← (← Value.field? "left" entries).text?
    let op ← Operator.ofSymbol? (← (← Value.field? "op" entries).text?)
    let right ← Operand.ofValue? (← Value.field? "right" entries)
    return ⟨left, op, right⟩

end KeyedRelations
