import KeyedRelations.Table.Basic

/-!
# Bulk loading

A builder inserts rows one by one. It remembers the rows it has been offered and those that were
rejected, each with the reason, and counts those that were accepted.
-/

namespace KeyedRelations

/-- A table that is being loaded. -/
structure Builder where
  table : Table
  offered : List Row
  rejected : List (Row × Fault)
  count : Nat

namespace Builder

def ofTable (table : Table) : Builder := ⟨table, [], [], 0⟩

/-- Inserts a row. A fault that is not the row's own is passed on. -/
def append (b : Builder) (row : Row) : Builder × Except Fault Bool :=
  let (table, result) := b.table.insert row
  let b := { b with table, offered := b.offered ++ [row] }
  match result with
  | .ok _ => ({ b with count := b.count + 1 }, .ok true)
  | .error fault =>
    if fault.rejectsRow then ({ b with rejected := b.rejected ++ [(row, fault)] }, .ok false)
    else (b, .error fault)

/-- Inserts rows in order, up to a fault that is not a row's own. -/
def appendAll (b : Builder) : List Row → Builder × Except Fault Unit
  | [] => (b, .ok ())
  | row :: rest =>
    match b.append row with
    | (b, .ok _) => b.appendAll rest
    | (b, .error fault) => (b, .error fault)

/-- Inserts rows in order, and answers how many of them were accepted. -/
def extend (b : Builder) (rows : List Row) : Builder × Except Fault Nat :=
  let (loaded, result) := b.appendAll rows
  (loaded, result.map fun _ => loaded.count - b.count)

end Builder

end KeyedRelations
