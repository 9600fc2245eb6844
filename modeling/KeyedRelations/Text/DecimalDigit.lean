/-!
# Whole numbers in decimal digits

The decimal digits of Unicode 14.0 come in blocks of ten that start with a zero; digits of
different blocks may be mixed in one number.
-/

namespace KeyedRelations.Text

/-- The zeros that start the blocks of decimal digits. -/
def digitZeros : List Nat :=
  [0x0030, 0x0660, 0x06f0, 0x07c0, 0x0966, 0x09e6, 0x0a66, 0x0ae6, 0x0b66, 0x0be6,
   0x0c66, 0x0ce6, 0x0d66, 0x0de6, 0x0e50, 0x0ed0, 0x0f20, 0x1040, 0x1090, 0x17e0,
   0x1810, 0x1946, 0x19d0, 0x1a80, 0x1a90, 0x1b50, 0x1bb0, 0x1c40, 0x1c50, 0xa620,
   0xa8d0, 0xa900, 0xa9d0, 0xa9f0, 0xaa50, 0xabf0, 0xff10, 0x104a0, 0x10d30, 0x11066,
   0x110f0, 0x11136, 0x111d0, 0x112f0, 0x11450, 0x114d0, 0x11650, 0x116c0, 0x11730, 0x118e0,
   0x11950, 0x11c50, 0x11d50, 0x11da0, 0x16a60, 0x16ac0, 0x16b50, 0x1d7ce, 0x1d7d8, 0x1d7e2,
   0x1d7ec, 0x1d7f6, 0x1e140, 0x1e2f0, 0x1e950, 0x1fbf0]

/-- The value of a decimal digit. -/
def digitValue? (c : Char) : Option Nat :=
  (digitZeros.find? fun first => first ≤ c.toNat && c.toNat ≤ first + 9).map (c.toNat - ·)

/-- The values of a text that consists of digits only. -/
def digitValues? (cs : List Char) : Option (List Nat) := cs.mapM digitValue?

/-- A whole number with its sign as it is spelled. -/
structure Numeral where
  isNegative : Bool
  digits : List Nat
  deriving DecidableEq

namespace Numeral

/-- Reads an optional sign and one or more digits. -/
def ofText? (s : String) : Option Numeral :=
  let (isNegative, cs) :=
    match s.toList with
    | '-' :: cs => (true, cs)
    | '+' :: cs => (false, cs)
    | cs => (false, cs)
  match digitValues? cs with
  | none | some [] => none
  | some digits => some ⟨isNegative, digits⟩

def magnitude (n : Numeral) : Nat := n.digits.foldl (fun value d => 10 * value + d) 0

def value (n : Numeral) : Int := if n.isNegative then -n.magnitude else n.magnitude

end Numeral

/-- Whether a number has no more decimal digits than a limit. -/
def digitsWithin : (limit : Nat) → Nat → Bool
  | 0, _ => false
  | limit + 1, n => n < 10 || digitsWithin limit (n / 10)

/-- A whole number in ASCII digits, with a sign only if it is negative. -/
def decimal (n : Int) : String :=
  let digits := Nat.toDigits 10 n.natAbs
  String.ofList (if n < 0 then '-' :: digits else digits)

end KeyedRelations.Text
