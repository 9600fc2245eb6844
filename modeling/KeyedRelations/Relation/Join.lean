import KeyedRelations.Relation.Basic

/-!
# Joins

A join goes through all pairs of a left and a right row, the left row changing last, and puts
together the pairs that match. What it needs of a left row is looked up once, even if there is no
right row. Left columns keep their names; in an equi join and a theta join the right columns get
fresh names where they clash.
-/

namespace KeyedRelations

/-- The joined row of a right row, if it matches the left row in question. -/
abbrev Partner := Row → Except Fault (Option Row)

/-- The joined rows, where `partner` looks at a left row first. -/
def joinRows (partner : Row → Except Fault Partner) (right : List Row) :
    List Row → Except Fault (List Row)
  | [] => .ok []
  | a :: rest => do
    let joined ← scan (← partner a) right
    return joined ++ (← joinRows partner right rest)

namespace Schema

/-- The positions of the columns whose names another schema does not have. -/
def positionsOutside (schema other : Schema) : List Nat :=
  (schema.columns.zipIdx.filter fun (column, _) => !other.has column.name).map (·.2)

end Schema

namespace Relation

variable (r s : Relation)

/-- The schema of joined rows, in which clashing right names are made fresh. -/
def joinSchema : Except Fault Schema := do
  r.schema.concat (← s.schema.disambiguate r.schema.attributes)

/-- The pairs of rows with equal values at the paired positions. -/
def joinEqual (left right : List Nat) (result : Row → Row → Except Fault Row) :
    Except Fault (List Row) :=
  joinRows (fun a => do
      let values ← a.pick left
      return fun b => do
        if ← b.holds values right then return some (← result a b) else return none)
    s.rows r.rows

/-- The pairs that agree in the paired columns. -/
def equiJoin (left right : List String) : Except Fault Relation := do
  if left.length ≠ right.length then
    throw (.condition (" ".intercalate left ++ " = " ++ " ".intercalate right) .listLengths)
  let i ← r.schema.positions left
  let j ← s.schema.positions right
  let schema ← r.joinSchema s
  return ⟨schema, ← r.joinEqual s i j Row.append⟩

/-- The pairs of which a comparison of a left with a right column holds. -/
def thetaJoin (condition : String) : Except Fault Relation := do
  let c ← Comparison.ofJoin condition
  let (i, left) ← r.schema.resolve c.left
  let (j, right) ← s.schema.resolve c.right.text
  if !left.domain.comparableWith right.domain then
    throw (.condition condition (.incomparable left.domain right.domain))
  let schema ← r.joinSchema s
  let partner (a : Row) : Except Fault Partner := do
    let v ← a.value i
    return fun b => do
      if ← c.test v (← b.value j) then return some (← a.append b) else return none
  return ⟨schema, ← joinRows partner s.rows r.rows⟩

/-- The pairs that agree in all columns of the same name. Of such a pair only the left row is kept,
or with `projectRight` also those right columns that the left schema does not have. Without a
common name every pair is joined. -/
def naturalJoin (projectRight : Bool) : Except Fault Relation := do
  let common := r.schema.attributes.filter s.schema.has
  if common = [] then
    let schema ← r.schema.concat s.schema
    return ⟨schema, ← r.joinEqual s [] [] Row.append⟩
  let i ← r.schema.positions common
  let j ← s.schema.positions common
  if projectRight then
    let rest := s.schema.positionsOutside r.schema
    let schema ← r.schema.extend s.schema
    return ⟨schema, ← r.joinEqual s i j fun a b => do a.append (.tuple (← b.pick rest))⟩
  return ⟨r.schema, ← r.joinEqual s i j fun a _ => .ok a⟩

end Relation

end KeyedRelations
