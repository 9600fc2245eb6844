import KeyedRelations.Number.Reading

/-!
# Fixed-point numbers

A fixed-point number counts units of `10 ^ (-places)`. Of a column of such numbers all have the same
number of places, and at most 38 digits. `Text.fixed?` reads one from a text and rounds it once.
-/

namespace KeyedRelations

/-- `units * 10 ^ (-places)`. -/
structure FixedPoint where
  units : Int
  places : Nat
  deriving DecidableEq

namespace FixedPoint

/-- Numbers below `10 ^ (-6)` are written with a power of ten. -/
def layout : DecimalLayout where
  leastPositional := -6
  firstScientific := 400
  exponentMark := "E"
  plus := "+"
  exponentDigits := 1
  wholeSuffix := ""
  infinity := ""
  notANumber := ""

/-- The text, which shows all places. -/
def text (x : FixedPoint) : String :=
  (if x.units < 0 then "-" else "") ++ layout.decimalText ⟨x.units.natAbs, -x.places⟩

/-- The number with so many units if it has at most 38 digits. -/
def ofUnits? (places : Nat) (units : Int) : Option FixedPoint :=
  if units.natAbs < tenTo 38 then some ⟨units, places⟩ else none

end FixedPoint

namespace Text

/-- The number of characters behind the first point. -/
def placesOf (s : String) : Nat := (s.toList.dropWhile (· != '.')).length - 1

/-- The fixed-point number nearest to the decimal that a text writes, a tie to the even one. A power
of ten is read only if it is negative. -/
def fixed? (places : Nat) (s : String) : Option FixedPoint := do
  let (negative, cs) := splitSign s.toList
  match cs.dropWhile fun c => c != 'e' && c != 'E' with
  | [] | _ :: '-' :: _ => pure ()
  | _ => none
  let d ← decimal? cs
  let power := d.exponent + places
  let units :=
    if 0 ≤ power then d.digits * tenTo power.toNat
    -- so many places away from the point nothing is left of the digits
    else if (cs.length : Int) < -power then 0
    else roundQuotient d.digits (tenTo (-power).toNat)
  FixedPoint.ofUnits? places (if negative then -(units : Int) else units)

end Text

end KeyedRelations
