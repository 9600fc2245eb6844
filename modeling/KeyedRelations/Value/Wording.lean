import KeyedRelations.Fault

/-!
# Values put into words

An integer is written only if it does not have too many digits, so a value that holds a longer one
has no words.
-/

namespace KeyedRelations.Value

mutual

/-- The integers inside a value. -/
def integers : Value → List Int
  | .int n => [n]
  | .list items | .tuple items | .key items => integersAll items
  | .dict entries => integersIn entries
  | _ => []

def integersAll : List Value → List Int
  | [] => []
  | v :: vs => v.integers ++ integersAll vs

def integersIn : List (Value × Value) → List Int
  | [] => []
  | (k, v) :: rest => k.integers ++ (v.integers ++ integersIn rest)

end

/-- The text of a value for a reader, unless an integer in it is too long to be written. -/
def words (v : Value) : Except Fault String :=
  if v.integers.all fun n => Text.digitsWithin Fault.numeralLimit n.natAbs then .ok v.plain
  else .error .integerLength

end KeyedRelations.Value
