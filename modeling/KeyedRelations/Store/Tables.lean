import KeyedRelations.Frame
import KeyedRelations.Store.Basic
import KeyedRelations.Text.Layout

/-!
# Making and filling tables

Tables are made from a declaration, a snapshot or a frame, and filled row by row. What is attempted
is traced before it is checked.
-/

namespace KeyedRelations.Store

/-- Makes a table from three texts: attribute names, domain names and key attributes. -/
def declareTable (session : SessionId) (name attributes domains key : String) :
    Action TableId := do
  let schema ← outcome (Schema.ofWords attributes domains key)
  let id ← addTable (Table.empty session name schema)
  report .debug .table ("DDL> create table " ++ name ++ " (" ++ attributes ++ ")")
  return id

/-- Makes a table from three texts and registers it. -/
def createTable (session : SessionId) (name attributes domains key : String) :
    Action TableId := do
  let id ← declareTable session name attributes domains key
  register session id
  return id

/-- Makes a table without rows under a schema in any form. -/
def newTable (session : SessionId) (name : String) (source : SchemaSource) : Action TableId := do
  let schema ← outcome (Schema.accept source)
  addTable (Table.empty session name schema)

/-- Makes the table of a snapshot. -/
def tableOfSnapshot (session : SessionId) (snapshot : Snapshot) : Action TableId := do
  addTable (← outcome (Table.ofSnapshot session snapshot))

/-! ## Rows -/

/-- Traces the attempt to add a row, if the row has words. -/
def reportInsertion (table : String) (row : Row) : Action Unit :=
  match row.words with
  | .ok words => report .debug .table ("DML> insert into " ++ table ++ " values (" ++ words ++ ")")
  | .error _ => pure ()

/-- Adds a row to a table and answers it as it is stored. -/
def insert (id : TableId) (row : Row) : Action Tuple := do
  let t ← table id
  reportInsertion t.name row
  let (t, result) := t.insert row
  setTable id t
  outcome result

/-- Adds a row to a table unless the row is rejected, and answers whether it was added. -/
def tryInsert (id : TableId) (row : Row) : Action Bool :=
  tryCatch (do discard (insert id row); return true) fun fault => do
    if !fault.rejectsRow then throw fault
    let t ← table id
    report .warning .table ("insert into " ++ t.name ++ " rejected: " ++ fault.message)
    return false

/-- Runs a builder on a table. -/
def build {α : Type} (id : TableId) (b : Builder) (run : Builder → Builder × Except Fault α) :
    Action (Builder × α) := do
  let (loaded, result) := run b
  (loaded.offered.drop b.offered.length).forM (reportInsertion b.table.name)
  setTable id loaded.table
  return (loaded, ← outcome result)

/-- Makes a table of the rows of a frame. Rows that do not fit are left out, and a year out of reach is
refused when its rows are handed out. -/
def tableOfFrame (session : SessionId) (name : String) (frame : Frame) (domains : DomainSource)
    (key : KeySource) : Action TableId := do
  let schema ← outcome do frame.schema (← domains.domains) key.attributes
  let t := Table.empty session name schema
  let id ← addTable t
  let (rows, farYear?) := frame.readable
  let (b, _) ← build id (.ofTable t) (·.extend (rows.map .tuple))
  if let some year := farYear? then throw (.farYear year)
  if b.rejected ≠ [] then
    report .warning .table
      (Text.grouped b.rejected.length ++ " row(s) rejected while loading " ++ name)
  return id

end KeyedRelations.Store
