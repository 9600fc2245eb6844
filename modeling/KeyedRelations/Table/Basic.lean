import KeyedRelations.Record
import KeyedRelations.Relation.Basic
import KeyedRelations.Schema.Declare

/-!
# Tables

A table is a named relation with an index on its key. Rows are only ever added. An insertion adds
the row and its index entry together or leaves the table alone; the result of an operator and a
snapshot may also hold rows that are not in the index.
-/

namespace KeyedRelations

/-- The number of a session. -/
structure SessionId where
  number : Nat
  deriving DecidableEq

/-- A named relation of a session, with an index on its key. -/
structure Table extends Relation where
  name : String
  session : SessionId
  index : TableIndex

namespace Table

/-- A table without rows. -/
def empty (session : SessionId) (name : String) (schema : Schema) : Table :=
  { name, session, schema, rows := [], index := .empty }

/-- The table of a result, which is not indexed. -/
def ofRelation (session : SessionId) (name : String) (r : Relation) : Table :=
  { r with name, session, index := .empty }

variable (t : Table)

/-- The number of rows. -/
def size : Nat := t.rows.length

/-- The values of a row that is to be added. The row is put into words before it is looked at, since
its addition is traced. -/
def examine (row : Row) : Except Fault Tuple := do
  discard row.words
  t.schema.validate row

/-- Adds a row and its index entry, and answers the row as it is stored. A row that has no words or
does not fit the schema and a row whose key is taken leave the table as it is. -/
def insert (row : Row) : Table × Except Fault Tuple :=
  match t.examine row with
  | .error fault => (t, .error fault)
  | .ok values =>
    match t.index.insertAs t.name (t.schema.keyOf values) (.tuple values) with
    | (index, .ok ()) => ({ t with rows := t.rows ++ [.tuple values], index }, .ok values)
    | (index, .error fault) => ({ t with index }, .error fault)

/-- The row that the index has under a key, as a relation. -/
def selectKey (key : Key) : Except Fault Relation := do
  let row? ← (t.index.find? Key.order key).mapError Fault.incomparable
  return ⟨t.schema, row?.toList⟩

/-! ## Snapshots -/

def toSnapshot : Snapshot := ⟨t.name, t.schema.toRecord, t.rows⟩

/-- Adds a row of a snapshot; only the first row of a key is indexed. -/
def addLoaded (row : Row) : Except Fault Table := do
  let values ← t.schema.validate row
  let key := t.schema.keyOf values
  let found? ← (t.index.find? Key.order key).mapError Fault.incomparable
  let index ←
    match found? with
    | some _ => pure t.index
    | none =>
      let (index, result) := t.index.insertAs t.name key (.tuple values)
      result.map fun _ => index
  return { t with rows := t.rows ++ [.tuple values], index }

/-- The table of a snapshot. -/
def ofSnapshot (session : SessionId) (s : Snapshot) : Except Fault Table := do
  let schema ← Schema.ofRecord s.schema
  s.rows.foldlM addLoaded (Table.empty session s.name schema)

end Table

end KeyedRelations
