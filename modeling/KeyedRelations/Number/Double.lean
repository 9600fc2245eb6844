import KeyedRelations.Number.Power

/-!
# Double-precision numbers

A `Double` is its 64-bit pattern. Every question about it is answered by whole-number arithmetic
on the pattern: each finite double is a whole multiple of `2 ^ (-1074)`, so finite values, whole
numbers and the two infinities all have a place on one extended line (`Extended`), and comparing
places is exact. Nothing here rounds except `Double.nearest` and what a narrower `BinaryFormat` does
with it, whose job it is.
-/

namespace KeyedRelations

/-- A place on the extended line; a finite place counts units of `2 ^ (-1074)`. -/
inductive Extended where
  | negInf
  | finite (units : Int)
  | posInf
  deriving DecidableEq

namespace Extended

/-- The order of the extended line. -/
protected def compare : Extended → Extended → Ordering
  | .negInf, .negInf => .eq
  | .negInf, _ => .lt
  | _, .negInf => .gt
  | .posInf, .posInf => .eq
  | .posInf, _ => .gt
  | _, .posInf => .lt
  | .finite a, .finite b => Ord.compare a b

/-- The place of a whole number. -/
def ofInt (n : Int) : Extended := .finite (n * twoTo 1074)

end Extended

/-- A number in the 64-bit binary interchange format. -/
structure Double where
  bits : UInt64
  deriving DecidableEq

namespace Double

variable (x : Double)

def isNegative : Bool := 0x8000000000000000 ≤ x.bits.toNat

def exponentField : Nat := x.bits.toNat / 0x10000000000000 % 0x800

def fractionField : Nat := x.bits.toNat % 0x10000000000000

def isFinite : Bool := x.exponentField != 2047

def isNaN : Bool := x.exponentField == 2047 && x.fractionField != 0

/-- The whole number that a power of two scales to the magnitude. -/
def significand : Nat :=
  if x.exponentField = 0 then x.fractionField else 0x10000000000000 + x.fractionField

/-- How often the significand is doubled to count units of `2 ^ (-1074)`. -/
def scale : Nat := x.exponentField - 1

/-- The value in units of `2 ^ (-1074)`; it says nothing when the number is not finite. -/
def units : Int :=
  let magnitude : Int := x.significand * twoTo x.scale
  if x.isNegative then -magnitude else magnitude

/-- The place on the extended line; what is not a number has none. -/
def place? : Option Extended :=
  if x.isFinite then some (.finite x.units)
  else if x.isNaN then none
  else some (if x.isNegative then .negInf else .posInf)

/-- The magnitude as a pattern; patterns of non-negative numbers are ordered as their values. -/
def magnitudeBits : Nat := x.bits.toNat % 0x8000000000000000

def ofBits (n : Nat) : Double := ⟨UInt64.ofNat n⟩

def nan : Double := ofBits 0x7ff8000000000000

def infinity (negative : Bool) : Double :=
  ofBits (if negative then 0xfff0000000000000 else 0x7ff0000000000000)

end Double

/-- `n / d` to the nearest whole number, a tie to the even one. -/
def roundQuotient (n d : Nat) : Nat :=
  match Ord.compare (2 * (n % d)) d with
  | .lt => n / d
  | .gt => n / d + 1
  | .eq => n / d + n / d % 2

/-- `m / 2 ^ k` to the nearest whole number, a tie to the even one. -/
def roundShift (m k : Nat) : Nat := roundQuotient m (twoTo k)

namespace Double

/-- The double nearest to `m * 2 ^ p`, a tie to the even significand. -/
def nearest (negative : Bool) (m : Nat) (p : Int) : Double :=
  let length : Int := if m = 0 then 0 else (Nat.log2 m + 1 : Nat)
  let grid : Int := max (-1074) (p + length - 53)
  let significand := if grid ≤ p then m * twoTo (p - grid).toNat else roundShift m (grid - p).toNat
  let pattern := if significand = 0 then 0 else (grid + 1074).toNat * 0x10000000000000 + significand
  let sign := if negative then 0x8000000000000000 else 0
  if 0x7ff0000000000000 ≤ pattern then infinity negative else ofBits (sign + pattern)

/-- The double nearest to a whole number. -/
def ofInt (n : Int) : Double := nearest (n < 0) n.natAbs 0

/-- What is not a number, with as much of its fraction as a significand of so many bits holds and the
highest bit of the fraction set. -/
def quieted (x : Double) (precision : Nat) : Double :=
  let step := twoTo (53 - precision)
  let highest := twoTo (precision - 2)
  ofBits ((infinity x.isNegative).bits.toNat + (highest + x.fractionField / step % highest) * step)

end Double

/-- A binary format. Its finite numbers are the `m * 2 ^ p` with `m < 2 ^ precision` and
`leastExponent ≤ p` whose magnitude is below `2 ^ limit`. All of them are doubles. -/
structure BinaryFormat where
  precision : Nat
  leastExponent : Int
  limit : Nat

namespace BinaryFormat

def single : BinaryFormat := ⟨24, -149, 128⟩

def half : BinaryFormat := ⟨11, -24, 16⟩

variable (format : BinaryFormat)

/-- The number of the format nearest to `m * 2 ^ p`, a tie to the even significand. -/
def nearest (negative : Bool) (m : Nat) (p : Int) : Double :=
  let length : Int := if m = 0 then 0 else (Nat.log2 m + 1 : Nat)
  let grid : Int := max format.leastExponent (p + length - format.precision)
  let significand := if grid ≤ p then m else roundShift m (grid - p).toNat
  let power := if grid ≤ p then p else grid
  if twoTo format.limit ≤ significand * twoTo power.toNat then .infinity negative
  else .nearest negative significand power

/-- The number of the format nearest to a double. What is not a number keeps its sign and as much of
its fraction as fits. -/
def ofDouble (x : Double) : Double :=
  if x.isNaN then x.quieted format.precision
  else if !x.isFinite then x
  else format.nearest x.isNegative x.significand (x.scale - 1074)

end BinaryFormat

namespace Double

/-- The single-precision number nearest to `x`. -/
def toSingle (x : Double) : Double := BinaryFormat.single.ofDouble x

/-- The value of a 32-bit pattern; every single-precision number is also a double. What is not a
number keeps its sign and its fraction, with the highest bit of the fraction set. -/
def ofSingleBits (n : Nat) : Double :=
  let negative := 0x80000000 ≤ n
  let exponent : Nat := n / 0x800000 % 0x100
  let fraction : Nat := n % 0x800000
  if exponent = 255 then
    if fraction = 0 then infinity negative
    else ofBits ((infinity negative).bits.toNat + (0x400000 + fraction % 0x400000) * 0x20000000)
  else if exponent = 0 then nearest negative fraction (-149)
  else nearest negative (0x800000 + fraction) ((exponent : Int) - 150)

end Double

end KeyedRelations
