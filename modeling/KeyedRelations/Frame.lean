import KeyedRelations.Frame.Column
import KeyedRelations.Table.Builder

/-!
# Frames

A frame holds rows under typed columns. Tables are made of frames, and a table has a frame unless one
of its rows does not fit.
-/

namespace KeyedRelations

/-- Rows under typed columns. -/
structure Frame where
  columns : List (String × FrameType)
  rows : List Tuple

namespace Frame

/-! ## Frames from columns -/

/-- Columns with names: one that has none is named after its place. -/
def withNames {α : Type} (columns : List (String × α)) : List (String × α) :=
  columns.zipIdx.map fun ((name, content), i) =>
    (if name.isEmpty then "column_" ++ Text.decimal i else name, content)

/-- Refuses columns of which two have one name or are not equally tall. A column is compared with
those behind it. -/
def checkColumns : List (String × List Value) → Except FrameFault Unit
  | [] => .ok ()
  | (name, values) :: rest => do
    rest.forM fun (other, values') => do
      if other = name then throw (.repeatedColumn name)
      if values'.length ≠ values.length then
        throw (.columnHeight other values'.length name values.length)
    checkColumns rest

/-- The frame of the given columns. -/
def ofColumns (columns : List (String × FrameType × List Value)) : Except Fault Frame := do
  let filled ← columns.mapM fun (name, type, values) =>
    return (name, ← type.fill name values)
  let named := withNames filled
  let contents := named.map fun (name, _, values) => (name, values)
  (checkColumns contents).mapError Fault.frame
  let height := (contents.head?.map (·.2.length)).getD 0
  return {
    columns := named.map fun (name, type, _) => (name, type)
    rows := (List.range height).map fun i => contents.map fun (_, values) => values.getD i .null }

/-! ## Frames from rows -/

/-- The values of rows that are tuples. The first value that no frame holds is refused. -/
def tuples (rows : List Row) : Except Fault (List Tuple) :=
  rows.mapM fun
    | .text _ => .error (.frame .textRow)
    | .tuple values => do
      discard (Value.sampleAll values)
      return values

/-- Refuses a row that is not as long as the first. -/
def checkLengths (expected : Nat) (rows : List Tuple) : Except FrameFault Unit :=
  match rows.zipIdx.find? fun (row, _) => row.length ≠ expected with
  | some (row, i) => .error (.rowLength i row.length expected)
  | none => .ok ()

/-- The frame of the given rows. The first row sets the width, unless it is empty. If it is a text,
all rows are the cells of a single row. -/
def ofRows (columns : List (String × FrameType)) (rows : List Row) : Except Fault Frame := do
  let rows ←
    match rows with
    | .text _ :: _ =>
      if rows.length = columns.length then pure [.tuple (rows.map Row.toValue)]
      else throw (.frame .cellCount)
    | .tuple first :: _ =>
      if first.isEmpty ∨ first.length = columns.length then pure rows
      else throw (.frame .rowWidth)
    | [] => pure []
  let rows ← tuples rows
  (checkLengths ((rows.head?.map (·.length)).getD 0) rows).mapError Fault.frame
  let converted ← rows.mapM fun row => (columns.zip row).mapM fun (column, v) => column.2.convert v
  return {
    columns
    rows := converted.map fun row => (List.range columns.length).map (Tuple.cell row) }

variable (frame : Frame)

/-- The columns of the frame with a domain for each. -/
def schema (domains : List Domain) (key : List String) : Except Fault Schema :=
  let names := frame.columns.map (·.1)
  if domains.length = names.length then
    Schema.define (names.zipWith Column.mk domains) key
  else .error (.frameWidth (domains.length < names.length))

/-! ## Rows that are handed out -/

/-- The first year in a row that is not one of 1 to 9999. -/
def farYear? (row : Tuple) : Option Int :=
  row.findSome? fun
    | .foreign x => x.year?.filter fun year => year < 1 || 9999 < year
    | _ => none

/-- The number of rows that are handed out together. Objects are handed out row by row. -/
def batchSize : Nat :=
  let isObject : FrameType → Bool
    | .object => true
    | _ => false
  if frame.columns.any fun (_, type) => isObject type then 1 else 512

/-- The rows up to the batch with a year out of reach, and that year. -/
def readable : List Tuple × Option Int :=
  match frame.rows.zipIdx.findSome? fun (row, i) => (farYear? row).map fun year => (i, year) with
  | some (i, year) => (frame.rows.take (i / frame.batchSize * frame.batchSize), some year)
  | none => (frame.rows, none)

end Frame

/-- The frame of a table. -/
def Table.toFrame (t : Table) : Except Fault Frame :=
  Frame.ofRows (t.schema.columns.map fun c => (c.name, .ofDomain c.domain)) t.rows

end KeyedRelations
