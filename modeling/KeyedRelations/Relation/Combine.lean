import KeyedRelations.Relation.Basic
import KeyedRelations.Relation.Exact
import Std.Data.HashSet.Basic

/-!
# Union and difference

Both operators compare rows exactly and keep the order of the rows. Neither removes rows that the
first relation repeats.
-/

namespace KeyedRelations

/-- The rows that are neither in `seen` nor earlier in the list. -/
def unseen (seen : Std.HashSet ExactRow) : List Row → Except Fault (List Row)
  | [] => .ok []
  | row :: rest => do
    match ← row.exact with
    | none => return row :: (← unseen seen rest)
    | some row' =>
      if seen.contains row' then unseen seen rest
      else return row :: (← unseen (seen.insert row') rest)

/-- The rows up to exact equality, without order. -/
def exactRows (rows : List Row) : Except Fault (Std.HashSet ExactRow) := do
  return .ofList ((← rows.mapM Row.exact).filterMap id)

namespace Relation

variable (r s : Relation)

/-- All rows of the first relation, then the rows of the second that have not occurred before. -/
def union : Except Fault Relation := do
  r.schema.checkCompatible s.schema
  let seen ← exactRows r.rows
  return ⟨r.schema, r.rows ++ (← unseen seen s.rows)⟩

/-- The rows of the first relation that are not in the second. -/
def minus : Except Fault Relation := do
  r.schema.checkCompatible s.schema
  let excluded ← exactRows s.rows
  return ⟨r.schema, ← keep (fun row => do return !(← row.exact).any excluded.contains) r.rows⟩

end Relation

end KeyedRelations
