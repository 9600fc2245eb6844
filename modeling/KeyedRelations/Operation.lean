import KeyedRelations.Relation.Combine
import KeyedRelations.Relation.Join
import KeyedRelations.Table.Basic

/-!
# Operations on tables

The operations of the algebra as data: what each computes, and the line that it leaves in the
trace before it does. Arguments that are found wrong while the line is written leave no line.
-/

namespace KeyedRelations

/-- An operation on one table. -/
inductive UnaryOperation where
  | project (names : List String)
  | selectWhere (p : Predicate)
  | selectCondition (condition : String)
  | selectKey (key : Value)

/-- An operation on two tables. -/
inductive BinaryOperation where
  | union
  | minus
  | equiJoin (left right : List String)
  | thetaJoin (condition : String)
  | naturalJoin (projectRight : Bool)
  /-- A join through an index, which there is not. -/
  | indexJoin
  /-- A join through a hash table, which there is not. -/
  | hashJoin

def spaced (names : List String) : String := " ".intercalate names

/-- A call of an operation on a named table. -/
def callLine (table operation : String) (arguments : List String) : String :=
  "RA> " ++ table ++ "." ++ operation ++ "(" ++ commaList arguments ++ ")"

/-- The text that stands for a predicate. -/
def Predicate.shown : String := "<predicate>"

namespace UnaryOperation

variable (t : Table)

/-- The line that the operation leaves in the trace. -/
def line : UnaryOperation → Except Fault String
  | .project names => .ok (callLine t.name "project" [spaced names])
  | .selectWhere _ => .ok (callLine t.name "select" [Predicate.shown])
  | .selectCondition condition => .ok (callLine t.name "select" [condition])
  | .selectKey key => do
    let key ← t.schema.coerceKey key
    return callLine t.name "select" [(Value.key key).plain]

def result : UnaryOperation → Except Fault Relation
  | .project names => t.project names
  | .selectWhere p => t.selectWhere p
  | .selectCondition condition => t.selectCondition condition
  | .selectKey key => do t.selectKey (← t.schema.coerceKey key)

end UnaryOperation

namespace BinaryOperation

variable (t u : Table)

/-- The line that the operation leaves in the trace, if it leaves one. -/
def line? : BinaryOperation → Option String
  | .union => some (callLine t.name "union" [u.name])
  | .minus => some (callLine t.name "minus" [u.name])
  | .equiJoin left right => some (callLine t.name "join" [spaced left, spaced right, u.name])
  | .thetaJoin condition => some (callLine t.name "join" [condition, u.name])
  | .naturalJoin _ => some (callLine t.name "join" [u.name])
  | .indexJoin | .hashJoin => none

def result : BinaryOperation → Except Fault Relation
  | .union => t.union u.toRelation
  | .minus => t.minus u.toRelation
  | .equiJoin left right => t.equiJoin u.toRelation left right
  | .thetaJoin condition => t.thetaJoin u.toRelation condition
  | .naturalJoin projectRight => t.naturalJoin u.toRelation projectRight
  | .indexJoin => .error (.unsupported "index join")
  | .hashJoin => .error (.unsupported "hash join")

end BinaryOperation

end KeyedRelations
