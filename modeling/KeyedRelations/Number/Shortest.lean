import KeyedRelations.Number.Double

/-!
# The shortest decimal text of a double

`Decimal.shortest?` finds the decimal with the fewest digits that rounds to a given finite double
and, of those, the one nearest to its value. For each number of digits only the two neighbours of
the value on that decimal grid are tested, in whole-number arithmetic: if any decimal of that
length rounds to the double, one of the neighbours does. `DecimalLayout` says how digits are laid
out as text, and `Double.text` is the layout of this library.
-/

namespace KeyedRelations

/-- `digits * 10 ^ exponent`. -/
structure Decimal where
  digits : Nat
  exponent : Int
  deriving DecidableEq

/-- A positive number with the two bounds of the interval that rounds to it, over one denominator. -/
structure RoundingInterval where
  low : Nat
  value : Nat
  high : Nat
  denominator : Nat
  closed : Bool

namespace RoundingInterval

/-- The interval of a finite non-zero double, by magnitude; the ends round to it when the
significand is even. -/
def ofDouble (x : Double) : RoundingInterval :=
  let m := x.significand
  let below := if m = 0x10000000000000 ∧ 1 < x.exponentField then 1 else 2
  -- quarters of the unit in the last place
  let up := twoTo (x.scale - 1076)
  { low := (4 * m - below) * up
    value := 4 * m * up
    high := (4 * m + 2) * up
    denominator := twoTo (1076 - x.scale)
    closed := m % 2 == 0 }

/-- Whether `numerator / (denominator of the interval * divisor)` rounds to the value. -/
def contains (i : RoundingInterval) (numerator divisor : Nat) : Bool :=
  if i.closed then
    i.low * divisor ≤ numerator && numerator ≤ i.high * divisor
  else
    i.low * divisor < numerator && numerator < i.high * divisor

/-- The number of zeros between the point and the first digit of `numerator / denominator`,
counted up to a bound. -/
def leadingZeros (numerator denominator : Nat) : Nat → Nat
  | 0 => 0
  | bound + 1 =>
    if denominator ≤ numerator * 10 then 0
    else leadingZeros (numerator * 10) denominator bound + 1

/-- The exponent `e` with `10 ^ (e - 1) ≤ value < 10 ^ e`. No double has as many as 400 zeros
after the point. -/
def decimalExponent (i : RoundingInterval) : Int :=
  let whole := i.value / i.denominator
  if whole = 0 then -(leadingZeros i.value i.denominator 400 : Int)
  else (Nat.toDigits 10 whole).length

/-- The decimal of the grid `10 ^ exponent` that rounds to the value and lies nearest to it, the
even one of two equally near. -/
def onGrid? (i : RoundingInterval) (exponent : Int) : Option Decimal :=
  let up := tenTo exponent.toNat
  let down := tenTo (-exponent).toNat
  -- one step of the grid, and the value, over the same denominator
  let step := up * i.denominator
  let value := i.value * down
  let floor := value / step
  let rest := value % step
  let lower := i.contains (floor * step) down
  let upper := i.contains ((floor + 1) * step) down
  let pick (upwards : Bool) : Decimal := ⟨if upwards then floor + 1 else floor, exponent⟩
  match lower, upper with
  | false, false => none
  | true, false => some (pick false)
  | false, true => some (pick true)
  | true, true =>
    match Ord.compare (2 * rest) step with
    | .lt => some (pick false)
    | .gt => some (pick true)
    | .eq => some (pick (floor % 2 == 1))

end RoundingInterval

namespace Decimal

/-- The same number with up to `count` trailing zeros dropped from its digits. -/
def dropZeros : Nat → Decimal → Decimal
  | 0, d => d
  | count + 1, d =>
    if d.digits ≠ 0 ∧ d.digits % 10 = 0 then dropZeros count ⟨d.digits / 10, d.exponent + 1⟩
    else d

/-- The shortest decimal that rounds to a finite non-zero double, by magnitude. Seventeen digits
always suffice. -/
def shortest (x : Double) : Decimal :=
  let interval := RoundingInterval.ofDouble x
  let point := interval.decimalExponent
  let found := (List.range 17).findSome? fun n => interval.onGrid? (point - ((n : Nat) + 1 : Int))
  dropZeros 17 (found.getD ⟨0, 0⟩)

end Decimal

/-- How a decimal is laid out as text. -/
structure DecimalLayout where
  /-- The least decimal exponent written without an exponent part. -/
  leastPositional : Int
  /-- The first decimal exponent written with an exponent part again. -/
  firstScientific : Int
  /-- What an exponent part starts with. -/
  exponentMark : String
  /-- The sign of an exponent that is not negative. -/
  plus : String
  /-- The least number of digits of an exponent part. -/
  exponentDigits : Nat
  /-- What ends a whole number that is written positionally. -/
  wholeSuffix : String
  infinity : String
  notANumber : String

namespace DecimalLayout

variable (layout : DecimalLayout)

/-- The text of a positive decimal. -/
def decimalText (d : Decimal) : String :=
  let digits := Nat.toDigits 10 d.digits
  let count : Int := digits.length
  -- the exponent of the first digit
  let leading := d.exponent + count - 1
  if leading < layout.leastPositional ∨ layout.firstScientific ≤ leading then
    let mantissa :=
      match digits with
      | [] => ""
      | [c] => String.singleton c
      | c :: rest => String.ofList (c :: '.' :: rest)
    let magnitude := toString leading.natAbs
    let padding := String.ofList (List.replicate (layout.exponentDigits - magnitude.length) '0')
    mantissa ++ layout.exponentMark ++ (if leading < 0 then "-" else layout.plus) ++ padding
      ++ magnitude
  else if leading < 0 then
    "0." ++ String.ofList (List.replicate (-leading - 1).toNat '0' ++ digits)
  else if 0 ≤ d.exponent then
    String.ofList (digits ++ List.replicate d.exponent.toNat '0') ++ layout.wholeSuffix
  else
    let whole := (leading + 1).toNat
    String.ofList (digits.take whole) ++ "." ++ String.ofList (digits.drop whole)

/-- The text of a double. -/
def text (x : Double) : String :=
  if x.isNaN then layout.notANumber
  else
    let magnitude :=
      if !x.isFinite then layout.infinity
      else if x.significand = 0 then "0" ++ layout.wholeSuffix
      else layout.decimalText (Decimal.shortest x)
    if x.isNegative then "-" ++ magnitude else magnitude

end DecimalLayout

/-- Numbers from `10 ^ (-4)` up to `10 ^ 16` are written positionally and always show a point. -/
def Double.layout : DecimalLayout where
  leastPositional := -4
  firstScientific := 16
  exponentMark := "e"
  plus := "+"
  exponentDigits := 2
  wholeSuffix := ".0"
  infinity := "inf"
  notANumber := "nan"

/-- The text of a double: the fewest digits that read back. -/
def Double.text (x : Double) : String := Double.layout.text x

end KeyedRelations
