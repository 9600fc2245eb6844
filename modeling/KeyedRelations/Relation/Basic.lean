import KeyedRelations.Condition
import KeyedRelations.Predicate
import KeyedRelations.Schema.Derive

/-!
# Relations

A relation is a schema with rows in order; a row may occur more than once. Unary operators choose
columns or rows. A scan asks about the rows from first to last and stops where asking fails, which
it never does about the values of a row that fits the schema.
-/

namespace KeyedRelations

/-- Rows under a schema. -/
structure Relation where
  schema : Schema
  rows : List Row

/-- What becomes of the rows that are wanted, in order. -/
def scan (f : Row → Except Fault (Option Row)) : List Row → Except Fault (List Row)
  | [] => .ok []
  | row :: rest => do
    match ← f row with
    | some row' => return row' :: (← scan f rest)
    | none => scan f rest

theorem scan_ok (f : Row → Option Row) (rows : List Row) :
    scan (fun row => .ok (f row)) rows = .ok (rows.filterMap f) := by
  induction rows with
  | nil => rfl
  | cons row rest ih =>
    rw [scan, ih, List.filterMap_cons]
    cases f row <;> rfl

/-- The rows of which a predicate holds. -/
def keep (p : Predicate) : List Row → Except Fault (List Row) :=
  scan fun row => do return if ← p row then some row else none

theorem keep_ok (p : Row → Bool) (rows : List Row) :
    keep (fun row => .ok (p row)) rows = .ok (rows.filter p) := by
  rw [← List.filterMap_eq_filter, ← scan_ok]
  rfl

namespace Relation

variable (r : Relation)

/-- The named columns only, of every row. -/
def project (names : List String) : Except Fault Relation := do
  let schema ← r.schema.project names
  let positions ← r.schema.positions names
  let rows ← r.rows.mapM fun row => do return .tuple (← row.pick positions)
  return ⟨schema, rows⟩

/-- The rows of which a predicate holds. -/
def selectWhere (p : Predicate) : Except Fault Relation := do
  return ⟨r.schema, ← keep p r.rows⟩

/-- The rows whose value in a numeric column compares with a whole number as the condition says. -/
def selectCondition (condition : String) : Except Fault Relation := do
  let c ← Comparison.ofSelection condition
  let (i, column) ← r.schema.resolve c.left
  if column.domain.kind ≠ .numeric then
    throw (.condition condition (.literalAgainst column.domain column.name))
  r.selectWhere fun row => do c.test (← row.value i) c.right.toValue

end Relation

end KeyedRelations
