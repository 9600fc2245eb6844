import KeyedRelations.Proofs.Key.Line

/-!
# Keys in words

A value has words just if every integer in it has at most 4300 digits. What a domain accepts has fewer,
so keys of rows have words always; a key that is made by hand need not have them.
-/

namespace KeyedRelations

theorem Text.digitsWithin_iff {limit : Nat} (hlimit : 0 < limit) (n : Nat) :
    digitsWithin limit n = true ↔ n < 10 ^ limit := by
  induction limit generalizing n with
  | zero => exact absurd hlimit (lt_irrefl 0)
  | succ limit ih =>
    rw [digitsWithin, Bool.or_eq_true, decide_eq_true_eq]
    cases limit with
    | zero => simp [digitsWithin]
    | succ limit =>
      have hten : 10 ≤ 10 ^ (limit + 1) := Nat.le_self_pow (Nat.succ_ne_zero limit) 10
      rw [ih (Nat.succ_pos limit), Nat.pow_succ 10 (limit + 1)]
      omega

namespace Value

/-- Whether no integer inside a value has more digits than are written. -/
def Worded (v : Value) : Prop := ∀ n ∈ v.integers, n.natAbs < 10 ^ Fault.numeralLimit

variable {v : Value}

theorem worded_iff :
    v.Worded ↔ (v.integers.all fun n => Text.digitsWithin Fault.numeralLimit n.natAbs) = true := by
  have hlimit : 0 < Fault.numeralLimit := by decide
  simp only [Worded, List.all_eq_true, Text.digitsWithin_iff hlimit]

theorem words_ok (hv : v.Worded) : v.words = .ok v.plain := if_pos (worded_iff.1 hv)

theorem words_error (hv : ¬v.Worded) : v.words = .error .integerLength :=
  if_neg (mt worded_iff.2 hv)

theorem not_worded_power : ¬(Value.int (10 ^ Fault.numeralLimit)).Worded := by
  have habs (k : Nat) : ((10 : Int) ^ k).natAbs = 10 ^ k := Int.natAbs_pow 10 k
  intro hworded
  have hlt := hworded (10 ^ Fault.numeralLimit) List.mem_cons_self
  rw [habs] at hlt
  exact lt_irrefl _ hlt

theorem worded_key_iff {vs : List Value} : (Value.key vs).Worded ↔ ∀ v ∈ vs, v.Worded := by
  unfold Worded
  rw [integers]
  induction vs with
  | nil => simp [integersAll]
  | cons v vs ih => simp only [integersAll, List.forall_mem_append, List.forall_mem_cons, ih]

theorem worded_tuple_iff {vs : List Value} : (Value.tuple vs).Worded ↔ ∀ v ∈ vs, v.Worded :=
  worded_key_iff

end Value

theorem Domain.Holding.worded {d : Domain} {v : Value} (hv : d.Holding v) : v.Worded := by
  have hlimit : (2 : Nat) ^ 64 ≤ 10 ^ Fault.numeralLimit :=
    (by decide : 2 ^ 64 ≤ 10 ^ 20).trans (Nat.pow_le_pow_right (by decide) (by decide))
  intro n hn
  cases hv with
  | @whole m _ low high =>
    obtain rfl : n = m := List.mem_singleton.1 hn
    omega
  | double => cases hn
  | text => cases hn

namespace Key

variable {key : Key}

theorem Typed.worded {domains : List Domain} (hkey : Typed domains key) :
    (Value.key key).Worded := by
  rw [Value.worded_key_iff]
  intro v hv
  obtain ⟨i, hi, rfl⟩ := List.getElem_of_mem hv
  have hd : i < domains.length := hkey.length_eq.symm ▸ hi
  exact (hkey.get hd hi).worded

variable (table : String)

theorem conflict_worded (hkey : (Value.key key).Worded) :
    key.conflict table = .keyConflict table key := by
  simp only [conflict, Value.words_ok hkey]

theorem conflict_not_worded (hkey : ¬(Value.key key).Worded) :
    key.conflict table = .integerLength := by
  simp only [conflict, Value.words_error hkey]

/-! ## Keys of one whole number -/

/-- The number of a key that is one whole number. -/
def whole : Key → ℤ
  | [.int n] => n
  | _ => 0

theorem compareAll_whole (op : Operator) (m n : Int) :
    Value.compareAll op [.int m] [.int n] = .ok (some (Ord.compare m n)) ∧
      Value.sameAll [.int m] [.int n] = (Ord.compare m n == .eq) := by
  have hself : Value.isSelf (.int m) (.int n) = false := rfl
  have hcompare : Value.compare op (.int m) (.int n) = .ok (some (Ord.compare m n)) := rfl
  have hsame : Value.same (.int m) (.int n) = (some (Ord.compare m n) == some .eq) := rfl
  simp only [Value.compareAll, Value.sameAll, hself, hcompare, hsame]
  cases Ord.compare m n <;> exact ⟨rfl, rfl⟩

/-- Whole numbers of any size are in order. -/
theorem along_whole : order.Along whole {key | ∃ n, key = [.int n]} where
  less_eq := by
    rintro _ ⟨m, rfl⟩ _ ⟨n, rfl⟩
    rw [less_of_compareAll (compareAll_whole .lt m n).1, Except.ok.injEq, Bool.eq_iff_iff]
    simp only [beq_iff_eq, Option.some.injEq, decide_eq_true_eq]
    exact (compares_compareOfLessAndEq m n).eq_lt
  greater_eq := by
    rintro _ ⟨m, rfl⟩ _ ⟨n, rfl⟩
    rw [greater_of_compareAll (compareAll_whole .gt m n).1, Except.ok.injEq, Bool.eq_iff_iff]
    simp only [beq_iff_eq, Option.some.injEq, decide_eq_true_eq]
    exact (compares_compareOfLessAndEq m n).eq_gt
  same_eq := by
    rintro _ ⟨m, rfl⟩ _ ⟨n, rfl⟩
    change Value.sameAll _ _ = _
    rw [(compareAll_whole .eq m n).2, Bool.eq_iff_iff]
    simp only [beq_iff_eq, decide_eq_true_eq]
    exact (compares_compareOfLessAndEq m n).eq_eq

end Key

end KeyedRelations
