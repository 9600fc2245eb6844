import KeyedRelations.Schema

/-!
# Schemas as text
-/

namespace KeyedRelations.Schema

variable (schema : Schema)

/-- The schema on one line. -/
def shown : String :=
  let columns := schema.columns.map fun c => c.name ++ ":" ++ c.domain.label
  "Schema(" ++ ", ".intercalate columns ++ "; key=" ++ " ".intercalate schema.key ++ ")"

/-- The schema with a line for each column. -/
def report : String :=
  let line (c : Column) : String :=
    "  - " ++ c.name ++ ": " ++ c.domain.label
      ++ (if schema.key.contains c.name then " (key)" else "")
  "\n".intercalate
    ("Schema:" :: schema.columns.map line ++ ["Key: " ++ " ".intercalate schema.key])

end KeyedRelations.Schema
