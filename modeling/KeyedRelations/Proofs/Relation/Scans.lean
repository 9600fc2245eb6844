import KeyedRelations.Proofs.Relation.Rows

/-!
# Scans do not fail

A scan whose questions all have answers is a map or a filter, and what is asked of a row that fits its
schema has an answer: the row has a value at every position of the schema, values of columns of one kind
can be compared, and numbers with any whole number.
-/

namespace KeyedRelations

/-! ## Lists of rows -/

theorem mapM_eq_ok {α β : Type} {f : α → Except Fault β} {g : α → β} {as : List α}
    (h : ∀ a ∈ as, f a = .ok (g a)) : as.mapM f = .ok (as.map g) := by
  induction as with
  | nil => rfl
  | cons a as ih =>
    obtain ⟨hhead, hrest⟩ := List.forall_mem_cons.1 h
    rw [List.mapM_cons, hhead, ih hrest]
    rfl

theorem scan_congr {f g : Row → Except Fault (Option Row)} {rows : List Row}
    (h : ∀ row ∈ rows, f row = g row) : scan f rows = scan g rows := by
  induction rows with
  | nil => rfl
  | cons row rows ih =>
    obtain ⟨hrow, hrows⟩ := List.forall_mem_cons.1 h
    rw [scan, scan, hrow, ih hrows]

theorem keep_eq_filter {p : Predicate} {q : Row → Bool} {rows : List Row}
    (h : ∀ row ∈ rows, p row = .ok (q row)) : keep p rows = .ok (rows.filter q) := by
  rw [← keep_ok]
  exact scan_congr fun row hrow => by rw [h row hrow]

/-! ## Values of columns -/

theorem Domain.Holding.of_kind {d e : Domain} {v : Value} (h : d.Holding v) (hkind : d.kind = e.kind) :
    e.Holding v := by
  cases h with
  | whole hd low high => exact .whole (hkind.symm.trans hd) low high
  | double hd => exact .double (hkind.symm.trans hd)
  | text hd => exact .text (hkind.symm.trans hd)

namespace Value

variable {d : Domain} {v w : Value}

/-- A number is compared with a whole number of any size. -/
theorem exists_compare_whole (op : Operator) (hkind : d.kind = .numeric) (h : d.Holding v) (n : Int) :
    ∃ o?, v.compare op (.int n) = .ok o? := by
  cases h with
  | whole => exact ⟨_, rfl⟩
  | double => exact ⟨_, rfl⟩
  | text hother => exact absurd (hkind.symm.trans hother) (by decide)

end Value

theorem Comparison.exists_test (c : Comparison) {v w : Value}
    (h : ∃ o?, v.compare c.operator w = .ok o?) : ∃ b, c.test v w = .ok b := by
  obtain ⟨o?, ho⟩ := h
  unfold Comparison.test Operator.test
  cases hop : c.operator with
  | eq => exact ⟨_, rfl⟩
  | ne => exact ⟨_, rfl⟩
  | _ =>
    rw [hop] at ho
    simp only [ho, bind, Except.bind]
    cases o? <;> exact ⟨_, rfl⟩

/-! ## Rows that fit -/

theorem Fitting.exists_holding {domains : List Domain} {t : Tuple} (hfit : Fitting domains t) :
    ∀ v ∈ t, ∃ d : Domain, d.Holding v := by
  induction hfit with
  | nil => simp
  | @cons d v domains t haccepts _ ih =>
    exact List.forall_mem_cons.2 ⟨⟨d, Domain.holding_of_accepts haccepts⟩, ih⟩

namespace Row

variable {schema : Schema} {domains others : List Domain} {a b row : Row}

theorem Fits.exists_value (h : row.Fits domains) {i : Nat} {d : Domain} (hi : domains[i]? = some d) :
    ∃ v, row.value i = .ok v ∧ d.Holding v := by
  obtain ⟨t, rfl, hfit⟩ := h
  obtain ⟨hlt, rfl⟩ := List.getElem?_eq_some_iff.1 hi
  have hlt' : i < t.length := hfit.length_eq ▸ hlt
  refine ⟨t.cell i, value_tuple hlt', ?_⟩
  rw [Tuple.cell_of_lt t hlt']
  exact Domain.holding_of_accepts (hfit.get hlt hlt')

end Row

end KeyedRelations
