import KeyedRelations.Row
import KeyedRelations.Value.Dictionary

/-!
# Exact rows

Two values are exactly equal when they are equal or when neither is a number although both are
doubles. `Value.exact` maps values to a type whose equality is exact equality, so that rows can be
looked up in a hash set. A value that is no key of a dictionary cannot be looked up and is refused.
A composite value that holds a double which is not a number and has no mark differs even from
itself: it has no exact form, and a row with it equals no row.
-/

namespace KeyedRelations

/-- A value up to exact equality; `other` stands for values that no column holds, by their text. -/
inductive ExactValue where
  | notANumber
  | number (place : Extended)
  | text (s : String)
  | other (shown : String)
  deriving DecidableEq

/-- A row up to exact equality. -/
abbrev ExactRow := List ExactValue

/-- A hash that tells whole numbers apart and most fractions. -/
def Extended.hash : Extended → UInt64
  | .negInf => 1
  | .posInf => 2
  | .finite units => mixHash (Hashable.hash (units / twoTo 1074)) (Hashable.hash (units / twoTo 1022))

def ExactValue.hash : ExactValue → UInt64
  | .notANumber => 3
  | .number place => place.hash
  | .text s => Hashable.hash s
  | .other shown => Hashable.hash shown

instance : Hashable ExactValue := ⟨ExactValue.hash⟩

namespace Value

/-- The whole number that a value equals, if there is one. -/
def whole? (v : Value) : Option Int := do
  match ← (← v.number?).place? with
  | .finite units => if units % twoTo 1074 = 0 then some (units / twoTo 1074) else none
  | _ => none

mutual

/-- The value with every number in it that equals a whole number replaced by that number, so that
equal values of other kinds have one text. A mark is shown as a list, which no key of a dictionary
holds. -/
def leveled : Value → Value
  | .nan _ mark => .list (mark.map fun (n : Nat) => .int n)
  | .tuple items => .tuple (leveledAll items)
  | .key values => .key (leveledAll values)
  | v => (v.whole?.map .int).getD v

def leveledAll : List Value → List Value
  | [] => []
  | v :: vs => v.leveled :: leveledAll vs

end

/-- What a value is up to exact equality, if it equals anything. -/
def exact (v : Value) : Except Fault (Option ExactValue) :=
  match v with
  | .text s => .ok (some (.text s))
  | v =>
    match v.unhashableKind?, v.number? with
    | some kind, _ => .error (.unhashable kind)
    | none, none => .ok (if v.same v then some (.other v.leveled.shown) else none)
    | none, some n =>
      match n.place? with
      | some place => .ok (some (.number place))
      | none => .ok (some .notANumber)

end Value

/-- What a row is up to exact equality, if it equals any row. -/
def Row.exact (row : Row) : Except Fault (Option ExactRow) := do
  return (← row.values.mapM Value.exact).mapM id

end KeyedRelations
