import KeyedRelations.Value

/-!
# Marks

No comparison holds between doubles that are not numbers, and still a composite value with such a
double in it is equal to itself wherever it is passed on. A mark makes the double known again. Rows
that a table has accepted hold no composite values, so marks are given to the rows that are put into
an index by hand: the mark of a double is the number of its row with the way to it inside the row.
-/

namespace KeyedRelations.Value

mutual

/-- The value with marks that start with the way to it. -/
def marked (way : List Nat) : Value → Value
  | .float x => if x.isNaN then .nan x way else .float x
  | .list items => .list (markedAll way 0 items)
  | .tuple items => .tuple (markedAll way 0 items)
  | .dict entries => .dict (markedEntries way 0 entries)
  | .key values => .key (markedAll way 0 values)
  | v => v

/-- Marks items, the first of which has the given place. -/
def markedAll (way : List Nat) (place : Nat) : List Value → List Value
  | [] => []
  | v :: vs => v.marked (place :: way) :: markedAll way (place + 1) vs

/-- Marks entries; the key and the value of an entry take one place each. -/
def markedEntries (way : List Nat) (place : Nat) : List (Value × Value) → List (Value × Value)
  | [] => []
  | (k, v) :: rest =>
    (k.marked (place :: way), v.marked ((place + 1) :: way)) :: markedEntries way (place + 2) rest

end

end KeyedRelations.Value
