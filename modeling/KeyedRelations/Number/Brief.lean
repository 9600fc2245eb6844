import KeyedRelations.Number.Shortest

/-!
# Brief texts of doubles

The text of a double in messages about frames has at most six places. Small whole numbers show a
point; what is longer than nine characters is cut to six places, or to five digits and a power of ten
if it is very small or large. Both are roundings of the exact value.
-/

namespace KeyedRelations.Double

variable (x : Double)

/-- The magnitude of a finite double at so many places behind the point. -/
def atPlaces (count : Nat) : Decimal :=
  ⟨roundQuotient (x.units.natAbs * tenTo count) (twoTo 1074), -count⟩

/-- The magnitude of a finite non-zero double with so many digits. -/
def withDigits (count : Nat) : Decimal :=
  let exponent := (RoundingInterval.ofDouble x).decimalExponent - count
  let digits := roundQuotient (x.units.natAbs * tenTo (-exponent).toNat)
    (twoTo 1074 * tenTo exponent.toNat)
  if digits = tenTo count then ⟨tenTo (count - 1), exponent + 1⟩ else ⟨digits, exponent⟩

/-- Positional texts of any length. -/
def positional : DecimalLayout where
  leastPositional := -400
  firstScientific := 400
  exponentMark := "e"
  plus := ""
  exponentDigits := 1
  wholeSuffix := ""
  infinity := "inf"
  notANumber := "NaN"

/-- Texts with a power of ten throughout. -/
def scientific : DecimalLayout := { positional with firstScientific := -400 }

/-- The least double that is not very small: a millionth. -/
def millionth : Double := ofBits 0x3eb0c6f7a0b5ed8d

/-- The brief text. -/
def brief : String :=
  let plain := positional.text x
  let magnitude := x.units.natAbs
  let isWhole := magnitude % twoTo 1074 = 0
  if !x.isFinite then plain
  else if isWhole ∧ magnitude < 1000000 * twoTo 1074 then plain ++ ".0"
  else if plain.length ≤ 9 then if isWhole then scientific.text x else plain
  else
    let cut :=
      if magnitude < millionth.units.natAbs ∨ 999999 * twoTo 1074 < magnitude then
        scientific.decimalText (x.withDigits 5)
      else
        let layout : DecimalLayout := { positional with wholeSuffix := ".0" }
        layout.decimalText (Decimal.dropZeros 6 (x.atPlaces 6))
    if x.isNegative then "-" ++ cut else cut

end KeyedRelations.Double
