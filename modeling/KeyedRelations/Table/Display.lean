import KeyedRelations.Schema.Display
import KeyedRelations.Table.Basic
import KeyedRelations.Text.Layout

/-!
# Tables as text
-/

namespace KeyedRelations.Table

variable (t : Table)

/-- The table on one line. -/
def shown : String :=
  "Table(" ++ Text.quoted t.name ++ ", " ++ t.schema.shown ++ ", rows=" ++ Text.decimal t.size ++ ")"

/-- Cells of a given width between borders. -/
def gridLine (width : Nat) (cells : List String) : String :=
  "| " ++ String.join (cells.map (Text.alignRight width)) ++ " |"

/-- Lengths below this limit can be counted, and so can their negatives. -/
def countLimit : Int := 0x8000000000000000

/-- Lengths below this limit fit into memory. -/
def memoryLimit : Int := 0x1000000000

/-- The rows as a grid of columns of a given width. -/
def grid (width : Int) : Except Fault String :=
  let length := width * t.schema.arity
  if length < -countLimit ∨ countLimit ≤ length then .error .lineLength
  else if memoryLimit ≤ length then .error .outOfMemory
  else
    match width with
    | .negSucc _ => .error .negativeWidth
    | .ofNat width =>
      let rule := "|-" ++ Text.repeated length.toNat '-' ++ "-|"
      let rows := t.rows.map fun row => gridLine width (Value.plainAll row.values)
      .ok <| "\n".intercalate <|
        [" Table " ++ t.name, rule, gridLine width t.schema.attributes, rule] ++ rows ++ [rule]

/-- The width of a grid's columns where no other is given. -/
def gridWidth : Int := 15

/-- The entries of the index, in order. -/
def indexReport : String :=
  let rule := Text.repeated 19 '-'
  let entries := t.index.toList.map fun (key, row) =>
    (Value.key key).plain ++ " -> " ++ bracketed (Value.shownAll row.values)
  "\n".intercalate ([" Index for " ++ t.name, rule] ++ entries ++ [rule])

end KeyedRelations.Table
