import KeyedRelations.Number.Shortest

/-!
# Reading numbers

A numeral has an optional sign and ASCII digits, with an optional point among them and an optional
power of ten behind them. Infinity and what is not a number have words of their own, in any mixture
of cases. A decimal is rounded once, from its exact value.
-/

namespace KeyedRelations

/-- The double nearest to a decimal, a tie to the even significand. No double has its first digit
more than 400 places away from the point. -/
def Decimal.toDouble (negative : Bool) (d : Decimal) : Double :=
  let leading : Int := d.exponent + (Nat.toDigits 10 d.digits).length
  if d.digits = 0 ∨ leading < -400 then .nearest negative 0 0
  else if 400 < leading then .infinity negative
  else
    let divisor := tenTo (-d.exponent).toNat
    -- so many binary places that the quotient has more bits than a significand
    let shift := Nat.log2 divisor + 66
    let scaled := d.digits * tenTo d.exponent.toNat * twoTo shift
    -- one more bit stands for all places behind the quotient
    let rest := if scaled % divisor = 0 then 0 else 1
    .nearest negative (2 * (scaled / divisor) + rest) (-(shift : Int) - 1)

namespace Text

/-- Whether there is a minus sign, and what stands behind the sign. -/
def splitSign : List Char → Bool × List Char
  | '-' :: cs => (true, cs)
  | '+' :: cs => (false, cs)
  | cs => (false, cs)

/-- The number that one or more ASCII digits write. -/
def natural? (cs : List Char) : Option Nat :=
  if cs.isEmpty || cs.any (!·.isDigit) then none
  else some (cs.foldl (fun n c => 10 * n + (c.toNat - '0'.toNat)) 0)

/-- The whole number that an optional sign and ASCII digits write. -/
def whole? (cs : List Char) : Option Int :=
  let (negative, cs) := splitSign cs
  (natural? cs).map fun n => if negative then -(n : Int) else n

/-- The decimal that digits with an optional point and an optional power of ten write. -/
def decimal? (cs : List Char) : Option Decimal := do
  let mantissa := cs.takeWhile fun c => c != 'e' && c != 'E'
  let whole := mantissa.takeWhile (· != '.')
  let places := (mantissa.drop whole.length).drop 1
  let digits ← natural? (whole ++ places)
  let power ←
    match cs.drop mantissa.length with
    | [] => some 0
    | _ :: power => whole? power
  return ⟨digits, power - places.length⟩

/-- The double that a text writes. -/
def double? (s : String) : Option Double :=
  let (negative, cs) := splitSign s.toList
  match (String.ofList cs).toLower with
  | "inf" | "infinity" => some (.infinity negative)
  | "nan" => some .nan
  | _ => (decimal? cs).map (Decimal.toDouble negative)

end Text

end KeyedRelations
