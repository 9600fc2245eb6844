import KeyedRelations.Schema

/-!
# Derived schemas

The schemas of results: projections, schemas with fresh names, and one schema after another.
-/

namespace KeyedRelations.Schema

variable (schema : Schema)

/-- The columns at the given positions. -/
def columnsAt (positions : List Nat) : List Column :=
  positions.filterMap fun i => schema.columns[i]?

/-- The named columns only, in the order of the names. The key stays if all of it is among them,
else all of them become the key. -/
def project (names : List String) : Except Fault Schema := do
  let positions ← schema.positions names
  let key := if schema.key.all names.contains then schema.key else names
  define (schema.columnsAt positions) key

/-- The least suffix from 2 on that makes a name different from all the used ones. As many
suffixes as there are used names, and one more, are enough to find it. -/
def freeSuffix (used : List String) (name : String) : Nat :=
  let candidates : List Nat := (List.range (used.length + 1)).map (· + 2)
  (candidates.find? fun (n : Nat) => !used.contains (name ++ Text.decimal n)).getD 0

/-- The name itself if it is not used, else the name with a suffix. -/
def freshName (used : List String) (name : String) : String :=
  if used.contains name then name ++ Text.decimal (freeSuffix used name) else name

/-- The columns under names that are neither used nor repeated. -/
def freshColumns (used : List String) : List Column → List Column
  | [] => []
  | column :: rest =>
    let name := freshName used column.name
    { column with name } :: freshColumns (name :: used) rest

/-- The schema with every column that has a taken name renamed; the key follows its columns. -/
def disambiguate (taken : List String) : Except Fault Schema :=
  let columns := freshColumns taken schema.columns
  define columns (schema.keyPositions.filterMap fun i => columns[i]?.map (·.name))

/-- The columns of one schema after those of another, with the key of the first. -/
def concat (other : Schema) : Except Fault Schema :=
  define (schema.columns ++ other.columns) schema.key

/-- Only the columns whose names the first schema does not have, after all of the first, with the
key of the first. -/
def extend (other : Schema) : Except Fault Schema :=
  define (schema.columns ++ other.columns.filter fun c => !schema.has c.name) schema.key

end KeyedRelations.Schema
