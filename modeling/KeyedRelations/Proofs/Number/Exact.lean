import KeyedRelations.Proofs.Key.Line

/-!
# Exact values

A finite double is a rational number, and so is a whole number. Together with the two infinities they
stand on the line of the extended rationals, and their order is the order on this line: comparing two
numbers of any kinds rounds neither of them.
-/

namespace KeyedRelations

/-! ## Relations that operators name -/

namespace Operator

section Order

variable {α : Type} [LinearOrder α]

/-- The relation that an operator names. -/
def Relates : Operator → α → α → Prop
  | .eq, a, b => a = b
  | .ne, a, b => a ≠ b
  | .lt, a, b => a < b
  | .le, a, b => a ≤ b
  | .gt, a, b => b < a
  | .ge, a, b => b ≤ a

instance (op : Operator) (a b : α) : Decidable (op.Relates a b) :=
  match op with
  | .eq => inferInstanceAs (Decidable (a = b))
  | .ne => inferInstanceAs (Decidable (a ≠ b))
  | .lt => inferInstanceAs (Decidable (a < b))
  | .le => inferInstanceAs (Decidable (a ≤ b))
  | .gt => inferInstanceAs (Decidable (b < a))
  | .ge => inferInstanceAs (Decidable (b ≤ a))

theorem holds_iff_relates (op : Operator) {o : Ordering} {a b : α} (h : o.Compares a b) :
    op.holds o = true ↔ op.Relates a b := by
  cases op with
  | eq => exact beq_iff_eq.trans h.eq_eq
  | ne => exact bne_iff_ne.trans h.eq_eq.not
  | lt => exact beq_iff_eq.trans h.eq_lt
  | le => exact bne_iff_ne.trans h.ne_gt
  | gt => exact beq_iff_eq.trans h.eq_gt
  | ge => exact bne_iff_ne.trans h.ne_lt

/-- What an operator says of two numbers, of which each may be missing: without them only `!=` holds. -/
def Says (op : Operator) : Option α → Option α → Prop
  | some a, some b => op.Relates a b
  | _, _ => op = .ne

instance (op : Operator) : (a b : Option α) → Decidable (op.Says a b)
  | some a, some b => inferInstanceAs (Decidable (op.Relates a b))
  | some _, none | none, some _ | none, none => inferInstanceAs (Decidable (op = .ne))

end Order

/-- The operator that holds where another one does not. -/
def opposite : Operator → Operator
  | .eq => .ne
  | .ne => .eq
  | .lt => .ge
  | .le => .gt
  | .gt => .le
  | .ge => .lt

theorem relates_opposite {α : Type} [LinearOrder α] (op : Operator) (a b : α) :
    op.opposite.Relates a b ↔ ¬op.Relates a b := by
  cases op with
  | eq => exact Iff.rfl
  | ne => exact not_not.symm
  | lt | gt => exact not_lt.symm
  | le | ge => exact not_le.symm

end Operator

/-! ## Rational numbers -/

/-- The rationals between two infinities. -/
abbrev ExtendedRational := WithBot (WithTop ℚ)

theorem cast_twoTo (n : ℕ) : ((twoTo n : ℤ) : ℚ) = 2 ^ n := by
  rw [twoTo, Nat.pow_eq, Int.cast_natCast, Nat.cast_pow, Nat.cast_ofNat]

namespace Double

/-- The number that a finite double is. -/
def rational (x : Double) : ℚ :=
  let exponent : ℤ := if x.exponentField = 0 then -1074 else x.exponentField - 1075
  let magnitude : ℚ := x.significand * 2 ^ exponent
  if x.isNegative then -magnitude else magnitude

theorem rational_eq_units (x : Double) : x.rational = x.units / 2 ^ 1074 := by
  -- Subnormal numbers and the least normal ones have one exponent, that of the unit.
  have hexponent : (if x.exponentField = 0 then -1074 else (x.exponentField : ℤ) - 1075) =
      (x.scale : ℤ) - (1074 : ℕ) := by
    unfold scale
    split_ifs <;> omega
  have hmagnitude : (x.significand : ℚ) * 2 ^ ((x.scale : ℤ) - (1074 : ℕ)) =
      ((x.significand * twoTo x.scale : ℤ) : ℚ) / 2 ^ 1074 := by
    rw [zpow_sub₀ two_ne_zero, zpow_natCast, zpow_natCast, Int.cast_mul, cast_twoTo,
      Int.cast_natCast, mul_div_assoc]
  unfold rational units
  dsimp only
  rw [hexponent, hmagnitude]
  split_ifs
  · rw [Int.cast_neg, neg_div]
  · rfl

end Double

namespace Extended

/-- The place of a number among the rationals. -/
def rational : Extended → ExtendedRational
  | .negInf => ⊥
  | .finite units => ((units / 2 ^ 1074 : ℚ) : WithTop ℚ)
  | .posInf => ((⊤ : WithTop ℚ) : ExtendedRational)

theorem compares_rational {a b : Extended} {o : Ordering} (h : o.Compares a.line b.line) :
    o.Compares a.rational b.rational := by
  have hscale : StrictMono fun units : ℤ => (units / 2 ^ 1074 : ℚ) := fun _ _ hlt =>
    div_lt_div_of_pos_right (Int.cast_lt.2 hlt) (by positivity)
  have hline : ∀ p : Extended, p.rational =
      p.line.map (WithTop.map fun units : ℤ => (units / 2 ^ 1074 : ℚ)) := by
    intro p
    cases p <;> rfl
  rw [hline, hline]
  exact hscale.withTop_map.withBot_map.compares.2 h

theorem rational_ofInt (n : ℤ) : (ofInt n).rational = ((n : ℚ) : WithTop ℚ) := by
  rw [ofInt, rational, Int.cast_mul, cast_twoTo, mul_div_cancel_right₀ _ (by positivity)]

end Extended

namespace Value

/-- A number among the rationals and the two infinities. What is not a number is not among them. -/
def Number.rational? : Number → Option ExtendedRational
  | .whole n => some ((n : ℚ) : WithTop ℚ)
  | .double x =>
    if x.isFinite then some (x.rational : WithTop ℚ)
    else if x.isNaN then none
    else some (if x.isNegative then ⊥ else ((⊤ : WithTop ℚ) : ExtendedRational))

theorem Number.rational?_eq_place (n : Number) : n.rational? = n.place?.map Extended.rational := by
  cases n with
  | whole n => exact congrArg some (Extended.rational_ofInt n).symm
  | double x =>
    unfold rational? place? Double.place?
    dsimp only
    split_ifs
    · rw [x.rational_eq_units]
      rfl
    · rfl
    · rfl
    · rfl

/-- The place of a value among the rationals and the two infinities, if it is a number. -/
def rational? (v : Value) : Option ExtendedRational := v.number?.bind Number.rational?

end Value

end KeyedRelations
