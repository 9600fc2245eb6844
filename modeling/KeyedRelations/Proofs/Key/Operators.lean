import KeyedRelations.Proofs.Key.Line

/-!
# The operators on keys

Whether two values have an order, and which, does not depend on the operator on whose behalf it is
asked for: the operator is only named in the fault. So where `<`, `>` and `==` tell the places of keys
on a line, `≤` does too.
-/

namespace KeyedRelations

namespace Value

theorem compareAtoms_congr {op : Operator} {a b : Value} {o? : Option Ordering}
    (h : compareAtoms op a b = .ok o?) (other : Operator) : compareAtoms other a b = .ok o? := by
  unfold compareAtoms at h ⊢
  split at h
  · exact h
  · exact h
  · exact h
  · split at h
    · exact h
    · cases h

/-- An order that is found for one operator is found for any. -/
theorem compareAll_congr {op : Operator} {as bs : List Value} {o? : Option Ordering}
    (h : compareAll op as bs = .ok o?) (other : Operator) : compareAll other as bs = .ok o? := by
  suffices hall : ∀ o?, compareAll op as bs = .ok o? → compareAll other as bs = .ok o? from hall o? h
  refine compareAll.induct (fun a b => ∀ o?, a.compare op b = .ok o? → a.compare other b = .ok o?)
    (fun as bs => ∀ o?, compareAll op as bs = .ok o? → compareAll other as bs = .ok o?)
    ?list ?tuple ?key ?atoms ?ends ?shorter ?longer ?alike ?different as bs
  case list | tuple | key =>
    intro as bs ih
    simpa only [compare] using ih
  case atoms =>
    intro a b hlist htuple hkey o? h
    rw [compare.eq_4 _ _ _ hlist htuple hkey] at h ⊢
    exact compareAtoms_congr h other
  case ends => exact fun o? h => h
  case shorter => exact fun b bs o? h => h
  case longer => exact fun a as o? h => h
  case alike =>
    intro a as b bs halike ih
    simpa only [compareAll, if_pos halike] using ih
  case different =>
    intro a as b bs hdifferent ih
    simpa only [compareAll, if_neg hdifferent] using ih

theorem compareAll_of_sameAll (op : Operator) {as bs : List Value} (h : sameAll as bs = true) :
    compareAll op as bs = .ok (some .eq) := by
  induction as generalizing bs with
  | nil =>
    cases bs with
    | nil => rfl
    | cons b bs => cases h
  | cons a as ih =>
    cases bs with
    | nil => cases h
    | cons b bs =>
      rw [sameAll, Bool.and_eq_true] at h
      rw [compareAll, if_pos h.1]
      exact ih h.2

end Value

/-- Where keys are compared by their places on a line, `≤` says what the places say. -/
theorem KeyOrder.Along.le_eq {α : Type} [LinearOrder α] {place : Key → α} {S : Set Key}
    (hS : Key.order.Along place S) {a b : Key} (ha : a ∈ S) (hb : b ∈ S) :
    Operator.test .le (.key a) (.key b) = .ok (decide (place a ≤ place b)) := by
  have hless := hS.less_eq a ha b hb
  have hgreater := hS.greater_eq a ha b hb
  obtain ⟨o?, hcompare, -⟩ := exists_of_bind_eq_ok hgreater
  change Value.compareAll .gt a b = .ok o? at hcompare
  rw [Key.less_of_compareAll (Value.compareAll_congr hcompare .lt), Except.ok.injEq] at hless
  rw [Key.greater_of_compareAll hcompare, Except.ok.injEq] at hgreater
  have hle : (Value.key a).compare .le (.key b) = .ok o? := Value.compareAll_congr hcompare .le
  simp only [Operator.test, hle, bind, Except.bind]
  cases o? with
  | none =>
    -- Keys without an order have the same place, but then they are the same and have an order.
    have hplace : place a = place b :=
      le_antisymm (not_lt.1 (of_decide_eq_false hgreater.symm))
        (not_lt.1 (of_decide_eq_false hless.symm))
    have hsame : Value.sameAll a b = true := (hS.same_eq a ha b hb).trans (decide_eq_true hplace)
    have hequal := Value.compareAll_of_sameAll .gt hsame
    exact absurd (hcompare.symm.trans hequal) (by simp)
  | some o =>
    have habove : (o == .gt) = decide (place b < place a) := hgreater
    have hholds : Operator.holds .le o = decide (place a ≤ place b) := by
      change (!(o == .gt)) = _
      rw [habove, ← decide_not, decide_eq_decide]
      exact not_lt
    exact congrArg Except.ok hholds

end KeyedRelations
