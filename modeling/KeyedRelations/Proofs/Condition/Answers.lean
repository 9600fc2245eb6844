import KeyedRelations.Proofs.Relation.ExactForms

/-!
# Answers of comparisons

Two values of one kind of column have an order unless one of them is `NaN`, and each operator answers what
it says of the order. Without an order only `!=` holds. If the values are exchanged, the order is the
other one, so the mirrored operator has the same answer.
-/

namespace KeyedRelations

namespace Operator

/-- Whether a comparison holds of two values. It does not hold where it cannot be made. -/
def decides (op : Operator) (v w : Value) : Bool := (op.test v w).toOption.getD false

/-- The operator that holds the other way round. -/
def mirrored : Operator → Operator
  | .eq => .eq
  | .ne => .ne
  | .lt => .gt
  | .le => .ge
  | .gt => .lt
  | .ge => .le

/-- Whether an operator holds of two values in an order; without one only `!=` does. -/
def answer (op : Operator) : Option Ordering → Bool
  | some o => op.holds o
  | none => op == .ne

theorem answer_mirrored (op : Operator) (o? : Option Ordering) :
    op.mirrored.answer (o?.map Ordering.swap) = op.answer o? := by
  cases o? with
  | none => cases op <;> rfl
  | some o => cases op <;> cases o <;> rfl

/-- Where values have an order or are known to have none, the operator answers from it. -/
theorem decides_of_compare (op : Operator) {v w : Value} {o? : Option Ordering}
    (hcompare : v.compare op w = .ok o?) (hsame : v.same w = (o? == some .eq)) :
    op.decides v w = op.answer o? := by
  cases op with
  | eq => cases o? <;> exact hsame
  | ne =>
    have hdiffer : Operator.decides .ne v w = !(o? == some .eq) := congrArg Bool.not hsame
    cases o? <;> exact hdiffer
  | lt | le | gt | ge =>
    unfold Operator.decides Operator.test
    simp only [hcompare, bind, Except.bind]
    cases o? <;> rfl

end Operator

theorem Comparison.test_eq_decides (c : Comparison) {v w : Value}
    (h : ∃ o?, v.compare c.operator w = .ok o?) : c.test v w = .ok (c.operator.decides v w) := by
  obtain ⟨answer, hanswer⟩ := c.exists_test h
  unfold Comparison.test at hanswer ⊢
  unfold Operator.decides
  cases htest : c.operator.test v w with
  | ok b => rfl
  | error cause =>
    rw [htest] at hanswer
    cases hanswer

namespace Value

theorem Number.compare_swap (m n : Number) : n.compare m = (m.compare n).map Ordering.swap := by
  cases hm : m.place? with
  | none => rw [compare_eq_none hm, compare_eq_none_left hm, Option.map_none]
  | some p =>
    cases hn : n.place? with
    | none => rw [compare_eq_none hn, compare_eq_none_left hn, Option.map_none]
    | some q =>
      obtain ⟨o, ho, horder⟩ := compares_line hm hn
      obtain ⟨o', ho', horder'⟩ := compares_line hn hm
      rw [ho, ho', Option.map_some, horder'.inj horder.swap]

/-- The order of two numbers or of two texts, if they have one. -/
def order? (v w : Value) : Option Ordering :=
  match v.number?, w.number? with
  | some m, some n => m.compare n
  | _, _ =>
    match v, w with
    | .text s, .text t => some (Ord.compare s t)
    | _, _ => none

variable {d e : Domain} {v w : Value}

theorem order?_of_numbers {m n : Number} (hm : v.number? = some m) (hn : w.number? = some n) :
    v.order? w = m.compare n := by
  unfold order?
  rw [hm, hn]

variable (hv : d.Holding v)

include hv

section Ordered

variable (hw : d.Holding w)

include hw

theorem compare_eq_order? (op : Operator) :
    v.compare op w = .ok (v.order? w) ∧ v.same w = (v.order? w == some .eq) := by
  cases hkind : d.kind with
  | numeric =>
    obtain ⟨m, n, hm, hn, hcompare, hsame⟩ := compare_numeric op hkind hv hw
    rw [order?_of_numbers hm hn]
    exact ⟨hcompare, hsame⟩
  | text =>
    obtain ⟨s, t, rfl, rfl, hcompare, hsame⟩ := compare_text op hkind hv hw
    refine ⟨hcompare, hsame.trans ?_⟩
    change (s == t) = (Ord.compare s t == .eq)
    rw [Bool.eq_iff_iff, beq_iff_eq, beq_iff_eq]
    exact (compares_compareOfLessAndEq s t).eq_eq.symm

theorem order?_swap : w.order? v = (v.order? w).map Ordering.swap := by
  cases hkind : d.kind with
  | numeric =>
    obtain ⟨m, n, hm, hn, -⟩ := compare_numeric .eq hkind hv hw
    rw [order?_of_numbers hm hn, order?_of_numbers hn hm]
    exact Number.compare_swap m n
  | text =>
    obtain ⟨s, t, rfl, rfl, -⟩ := compare_text .eq hkind hv hw
    have hswap := (compares_compareOfLessAndEq s t).swap
    exact congrArg some ((compares_compareOfLessAndEq t s).inj hswap)

theorem decides_eq_answer (op : Operator) : op.decides v w = op.answer (v.order? w) := by
  obtain ⟨hcompare, hsame⟩ := compare_eq_order? hv hw op
  exact op.decides_of_compare hcompare hsame

theorem decides_mirrored (op : Operator) : op.mirrored.decides w v = op.decides v w := by
  rw [decides_eq_answer hw hv, order?_swap hv hw, op.answer_mirrored, decides_eq_answer hv hw]

end Ordered

/-- Equality is symmetric on values of any columns. -/
theorem same_comm_of_holding (hw : e.Holding w) : v.same w = w.same v := by
  by_cases hkind : e.kind = d.kind
  · exact (decides_mirrored hv (hw.of_kind hkind) .eq).symm
  · -- Neither is a number the same as a text, nor the other way round.
    cases hv with
    | whole hd | double hd =>
      cases hw with
      | whole he | double he => exact absurd (he.trans hd.symm) hkind
      | text => rfl
    | text hd =>
      cases hw with
      | whole | double => rfl
      | text he => exact absurd (he.trans hd.symm) hkind

end Value

end KeyedRelations
