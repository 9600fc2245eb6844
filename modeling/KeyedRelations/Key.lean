import KeyedRelations.Index.Primary
import KeyedRelations.Row

/-!
# Keys

A key is the list of the values that a row has in the key columns. Keys are ordered like sequences
of values: by the first position at which they differ.
-/

namespace KeyedRelations

/-- A composite key. -/
abbrev Key := List Value

/-- The order of keys. -/
def Key.order : KeyOrder Key Incomparable where
  same := Value.sameAll
  less a b := Operator.test .lt (.key a) (.key b)
  greater a b := Operator.test .gt (.key a) (.key b)

/-- The refusal of a key that is taken. It has the key in words. -/
def Key.conflict (table : String) (key : Key) : Fault :=
  match (Value.key key).words with
  | .ok _ => .keyConflict table key
  | .error fault => fault

/-- Adds an entry to the index of the named table. -/
def PrimaryIndex.insertAs {ρ : Type} (index : PrimaryIndex Key ρ) (table : String) (key : Key)
    (row : ρ) : PrimaryIndex Key ρ × Except Fault Unit :=
  let (index, result) := index.insert Key.order key row
  (index, result.mapError fun
    | .taken => key.conflict table
    | .comparison cause => .incomparable cause)

/-- The index of a table. -/
abbrev TableIndex := PrimaryIndex Key Row

end KeyedRelations
