import KeyedRelations.Row
import KeyedRelations.Value.Order

/-!
# Predicates

A predicate is a test of a row that can fail. `Term` is a small language of predicates: columns and
constants, comparisons, and connectives that pass one of their operands on, so that any value can
stand where a truth value is asked for.
-/

namespace KeyedRelations

/-- A test of a row. -/
abbrev Predicate := Row → Except Fault Bool

/-- Whether a value counts as true: zero, null and whatever is empty do not. -/
def Value.isTrue : Value → Bool
  | .null => false
  | .bool b => b
  | .int n => n != 0
  | .float x | .nan x _ => x.magnitudeBits != 0
  | .text s => s != ""
  | .bytes data => !data.isEmpty
  | .list items | .tuple items => !items.isEmpty
  | .dict entries => !entries.isEmpty
  | .key _ | .instant _ | .extension _ _ | .foreign _ => true

inductive Term where
  /-- The value at a position; negative positions count from the end. -/
  | column (position : Int)
  | constant (v : Value)
  | negation (t : Term)
  | both (a b : Term)
  | either (a b : Term)
  | comparison (op : Operator) (a b : Term)

namespace Term

/-- The first whole number beyond all positions. -/
def positionLimit : Int := 0x8000000000000000

/-- The value at a position of a row, counted from the end if it is negative. -/
def columnValue (row : Row) (position : Int) : Except Fault Value :=
  let i := if position < 0 then position + row.values.length else position
  if position < -positionLimit ∨ positionLimit ≤ position then .error .positionSize
  else if 0 ≤ i then row.value i.toNat
  else .error (.outOfRange row.isText)

def eval (row : Row) : Term → Except Fault Value
  | .column position => columnValue row position
  | .constant v => .ok v
  | .negation t => do return .bool (!(← t.eval row).isTrue)
  | .both a b => do
    let v ← a.eval row
    if v.isTrue then b.eval row else return v
  | .either a b => do
    let v ← a.eval row
    if v.isTrue then return v else b.eval row
  | .comparison op a b => do
    let v ← a.eval row
    let w ← b.eval row
    return .bool (← (op.test v w).mapError .incomparable)

/-- The predicate of a term. -/
def holds (t : Term) : Predicate := fun row => do return (← t.eval row).isTrue

end Term

end KeyedRelations
