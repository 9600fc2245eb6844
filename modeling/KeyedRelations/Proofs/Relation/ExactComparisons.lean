import KeyedRelations.Proofs.Number.Exact
import KeyedRelations.Proofs.Relation.Joins
import KeyedRelations.Proofs.Relation.Selections

/-!
# Exact comparisons

A condition on numeric columns says of each row what its operator says of two exact numbers: rationals of
any size and the two infinities. Where one of them is not a number, only `!=` holds. So a selection and a
theta join are filters by mathematical relations, and an operator and its opposite divide the rows whose
values are numbers.
-/

namespace KeyedRelations

/-! ## Values -/

namespace Value

theorem Number.answer_iff (op : Operator) (m n : Number) :
    op.answer (m.compare n) = true ↔ op.Says m.rational? n.rational? := by
  rw [rational?_eq_place, rational?_eq_place]
  -- Without a place there is no order, and the answer is that of `!=`.
  cases hm : m.place? with
  | none =>
    rw [compare_eq_none_left hm]
    exact beq_iff_eq
  | some p =>
    cases hn : n.place? with
    | none =>
      rw [compare_eq_none hn]
      exact beq_iff_eq
    | some q =>
      obtain ⟨o, ho, horder⟩ := compares_line hm hn
      rw [ho]
      exact op.holds_iff_relates (Extended.compares_rational horder)

variable {d : Domain} {v w : Value} (hkind : d.kind = .numeric) (hv : d.Holding v)

include hkind hv

theorem decides_iff (op : Operator) {n : Number} (hw : w.number? = some n) :
    op.decides v w = true ↔ op.Says v.rational? w.rational? := by
  obtain ⟨m, hm, hcompare⟩ := compare_of_numeric hkind hv op
  obtain ⟨hcompare, hsame⟩ := hcompare w
  rw [hw] at hcompare hsame
  unfold rational?
  rw [op.decides_of_compare hcompare hsame, hm, hw]
  exact Number.answer_iff op m n

theorem exists_rational (hnan : v.isNaN = false) : ∃ q, v.rational? = some q := by
  obtain ⟨m, hm, -⟩ := compare_of_numeric hkind hv .eq
  obtain ⟨p, hp, -⟩ := exists_place hkind hv hnan hm
  refine ⟨p.rational, ?_⟩
  unfold rational?
  rw [hm, Option.bind_some, Number.rational?_eq_place, hp, Option.map_some]

end Value

/-! ## Rows -/

/-- Whether a schema has a numeric column of a name at a position. -/
def Schema.NumericAt (schema : Schema) (name : String) (i : Nat) : Prop :=
  ∃ column, schema.columns[i]? = some column ∧ column.name = name ∧ column.domain.kind = .numeric

theorem Schema.NumericAt.exists_resolve {schema : Schema} {name : String} {i : Nat}
    (h : schema.NumericAt name i) :
    ∃ column, schema.resolve name = .ok (i, column) ∧ column.domain.kind = .numeric := by
  obtain ⟨column, hcolumn, hname, hkind⟩ := h
  exact ⟨column, resolve_eq_ok_iff.2 ⟨hcolumn, hname⟩, hkind⟩

namespace Row

/-- The exact number that a row has at a position, if it has one there. -/
def rational? (row : Row) (i : Nat) : Option ExtendedRational := (row.values.cell i).rational?

variable {left right : Schema} {a b : Row} {x y : String} {i j : Nat}
  (ha : a.Fits left.domains) (hi : left.NumericAt x i)

include ha hi

theorem Fits.exists_numeric : ∃ d : Domain, d.kind = .numeric ∧ a.value i = .ok (a.values.cell i) ∧
    d.Holding (a.values.cell i) := by
  obtain ⟨column, hcolumn, hkind⟩ := hi.exists_resolve
  exact ⟨column.domain, hkind, ha.value_eq (Schema.domain_of_resolve hcolumn)⟩

theorem Fits.exists_rational (hnan : (a.values.cell i).isNaN = false) : ∃ q, a.rational? i = some q := by
  obtain ⟨d, hkind, -, hholding⟩ := ha.exists_numeric hi
  exact Value.exists_rational hkind hholding hnan

theorem Fits.keeps_numeric (op : Operator) (n : ℤ) :
    Comparison.keeps ⟨x, op, .literal n⟩ i a =
      decide (op.Says (a.rational? i) (some ((n : ℚ) : WithTop ℚ))) := by
  obtain ⟨d, hkind, hvalue, hholding⟩ := ha.exists_numeric hi
  have htest := Comparison.test_eq_decides ⟨x, op, .literal n⟩
    (Value.exists_compare_whole op hkind hholding n)
  have hkeeps : Comparison.keeps ⟨x, op, .literal n⟩ i a = op.decides (a.values.cell i) (.int n) := by
    unfold Comparison.keeps Comparison.selects
    rw [hvalue]
    exact congrArg (fun answer => answer.toOption.getD false) htest
  rw [hkeeps, Bool.eq_iff_iff, decide_eq_true_iff]
  exact Value.decides_iff hkind hholding op rfl

theorem Fits.decides_numeric (hb : b.Fits right.domains) (hj : right.NumericAt y j) (op : Operator) :
    op.decides (a.values.cell i) (b.values.cell j) =
      decide (op.Says (a.rational? i) (b.rational? j)) := by
  obtain ⟨d, hkind, -, hholding⟩ := ha.exists_numeric hi
  obtain ⟨e, hkind', -, hholding'⟩ := hb.exists_numeric hj
  obtain ⟨n, hn, -⟩ := Value.compare_of_numeric hkind' hholding' op
  rw [Bool.eq_iff_iff, decide_eq_true_iff]
  exact Value.decides_iff hkind hholding op hn

/-- Where the numbers of a left and a right row are when the rows are put together. -/
theorem Fits.cells_beside (b : Row) (j : Nat) :
    (a.beside b).values.cell i = a.values.cell i ∧
      (a.beside b).values.cell (left.arity + j) = b.values.cell j := by
  obtain ⟨column, hcolumn, -⟩ := hi
  have hlength : a.values.length = left.arity := ha.length_values.trans Schema.length_domains
  constructor
  · exact cell_beside_left (hlength ▸ (List.getElem?_eq_some_iff.1 hcolumn).1)
  · rw [← hlength, cell_beside_right]

end Row

/-! ## Divided rows -/

/-- Two lists of rows divide those rows of a third one that pass a test: each of them is in one of the two
lists and none is in both. -/
structure Divided (p : Row → Bool) (rows kept others : List Row) : Prop where
  perm : ((kept ++ others).filter p).Perm (rows.filter p)
  disjoint : ∀ row ∈ kept, row ∈ others → p row = false

theorem divided_filter {p q q' : Row → Bool} {rows : List Row}
    (h : ∀ row ∈ rows, p row = true → q' row = !q row) :
    Divided p rows (rows.filter q) (rows.filter q') where
  perm := by
    -- Among the rows that pass the test, what is kept second is what is not kept first.
    have hrest : (rows.filter p).filter q' = (rows.filter p).filter fun row => !q row := by
      refine List.filter_congr fun row hrow => ?_
      obtain ⟨hmem, hp⟩ := List.mem_filter.1 hrow
      exact h row hmem hp
    rw [List.filter_append, List.filter_comm, List.filter_comm p q', hrest]
    exact List.filter_append_perm q (rows.filter p)
  disjoint row hkept hother := by
    obtain ⟨hrow, hq⟩ := List.mem_filter.1 hkept
    obtain ⟨-, hq'⟩ := List.mem_filter.1 hother
    by_contra hp
    rw [h row hrow (Bool.eq_true_of_not_eq_false hp), hq] at hq'
    cases hq'

/-- Where two numbers are known of a row, an operator holds of them or its opposite does. -/
theorem divided_opposite {p : Row → Bool} {rows : List Row} {left right : Row → Option ExtendedRational}
    (h : ∀ row ∈ rows, p row = true → (∃ a, left row = some a) ∧ ∃ b, right row = some b)
    (op : Operator) :
    Divided p rows (rows.filter fun row => op.Says (left row) (right row))
      (rows.filter fun row => op.opposite.Says (left row) (right row)) := by
  refine divided_filter fun row hrow hp => ?_
  obtain ⟨⟨a, ha⟩, b, hb⟩ := h row hrow hp
  rw [ha, hb, ← decide_not, decide_eq_decide]
  exact op.relates_opposite a b

/-! ## Selections and joins -/

namespace Relation

/-- Each left row with each right row behind it. -/
def pairs (r s : Relation) : List Row := r.rows.flatMap fun a => s.rows.map fun b => a.beside b

theorem pairs_eq_matching (r s : Relation) :
    r.pairs s = matching (fun _ => true) (fun x => x.1.beside x.2) r.rows s.rows := by
  rw [matching_true]
  rfl

section Comparisons

variable {r s : Relation} {x y : String} {i j : Nat} (hr : r.Sound) (hx : r.schema.NumericAt x i)

include hr hx

theorem Sound.selectCondition_numeric {condition : String} {op : Operator} {n : ℤ}
    (hc : Comparison.ofSelection condition = .ok ⟨x, op, .literal n⟩) :
    r.selectCondition condition = .ok ⟨r.schema, r.rows.filter fun row =>
      op.Says (row.rational? i) (some ((n : ℚ) : WithTop ℚ))⟩ := by
  rw [selectCondition_eq hc hx hr]
  congr 2
  exact List.filter_congr fun row hrow => (hr row hrow).keeps_numeric hx op n

theorem Sound.divided_selection (op : Operator) (n : ℤ) :
    Divided (fun row => !(row.values.cell i).isNaN) r.rows
      (r.rows.filter fun row => op.Says (row.rational? i) (some ((n : ℚ) : WithTop ℚ)))
      (r.rows.filter fun row => op.opposite.Says (row.rational? i) (some ((n : ℚ) : WithTop ℚ))) := by
  refine divided_opposite (fun row hrow hnumber => ?_) op
  rw [Bool.not_eq_true'] at hnumber
  exact ⟨(hr row hrow).exists_rational hx hnumber, _, rfl⟩

variable (hs : s.Sound) (hy : s.schema.NumericAt y j)

include hs hy

theorem Sound.thetaJoin_numeric {condition : String} {op : Operator} {joined : Schema}
    (hc : Comparison.ofJoin condition = .ok ⟨x, op, .attribute y⟩)
    (hjoined : r.joinSchema s = .ok joined) :
    r.thetaJoin s condition = .ok ⟨joined, (r.pairs s).filter fun row =>
      op.Says (row.rational? i) (row.rational? (r.schema.arity + j))⟩ := by
  obtain ⟨column, hcolumn, hkind⟩ := hx.exists_resolve
  obtain ⟨other, hother, hkind'⟩ := hy.exists_resolve
  have hcomparable : column.domain.comparableWith other.domain = true :=
    beq_iff_eq.2 (hkind.trans hkind'.symm)
  rw [hr.thetaJoin_eq hs hc hcolumn hother hcomparable hjoined, pairs_eq_matching, filter_matching]
  congr 2
  refine matching_congr fun a ha b hb => ⟨?_, rfl⟩
  obtain ⟨hleft, hright⟩ := (hr a ha).cells_beside hx b j
  dsimp only
  rw [(hr a ha).decides_numeric hx (hs b hb) hy op, Bool.and_true]
  unfold Row.rational?
  rw [hleft, hright]

theorem Sound.divided_join (op : Operator) :
    Divided (fun row => !(row.values.cell i).isNaN && !(row.values.cell (r.schema.arity + j)).isNaN)
      (r.pairs s)
      ((r.pairs s).filter fun row =>
        op.Says (row.rational? i) (row.rational? (r.schema.arity + j)))
      ((r.pairs s).filter fun row =>
        op.opposite.Says (row.rational? i) (row.rational? (r.schema.arity + j))) := by
  refine divided_opposite (fun row hrow hnumbers => ?_) op
  obtain ⟨a, ha, hrow⟩ := List.mem_flatMap.1 hrow
  obtain ⟨b, hb, rfl⟩ := List.mem_map.1 hrow
  obtain ⟨hleft, hright⟩ := (hr a ha).cells_beside hx b j
  rw [hleft, hright, Bool.and_eq_true, Bool.not_eq_true', Bool.not_eq_true'] at hnumbers
  unfold Row.rational?
  rw [hleft, hright]
  exact ⟨(hr a ha).exists_rational hx hnumbers.1, (hs b hb).exists_rational hy hnumbers.2⟩

end Comparisons

/-- A condition on a numeric column keeps the rows of which its operator holds between two exact numbers,
and so does a theta join on numeric columns with the pairs of rows. An operator and its opposite divide the
rows in which both are numbers. -/
theorem comparisons_exact {r : Relation} (hr : r.Sound) {x : String} {i : Nat}
    (hx : r.schema.NumericAt x i) :
    (∀ (condition : String) (op : Operator) (n : ℤ),
      Comparison.ofSelection condition = .ok ⟨x, op, .literal n⟩ →
      r.selectCondition condition = .ok ⟨r.schema, r.rows.filter fun row =>
        op.Says (row.rational? i) (some ((n : ℚ) : WithTop ℚ))⟩) ∧
    (∀ (condition other : String) (op : Operator) (n : ℤ) (kept others : Relation),
      Comparison.ofSelection condition = .ok ⟨x, op, .literal n⟩ →
      Comparison.ofSelection other = .ok ⟨x, op.opposite, .literal n⟩ →
      r.selectCondition condition = .ok kept → r.selectCondition other = .ok others →
      Divided (fun row => !(row.values.cell i).isNaN) r.rows kept.rows others.rows) ∧
    ∀ (s : Relation) (y : String) (j : Nat), s.Sound → s.schema.NumericAt y j →
      (∃ joined, r.joinSchema s = .ok joined ∧ ∀ (condition : String) (op : Operator),
        Comparison.ofJoin condition = .ok ⟨x, op, .attribute y⟩ →
        r.thetaJoin s condition = .ok ⟨joined, (r.pairs s).filter fun row =>
          op.Says (row.rational? i) (row.rational? (r.schema.arity + j))⟩) ∧
      ∀ (condition other : String) (op : Operator) (kept others : Relation),
        Comparison.ofJoin condition = .ok ⟨x, op, .attribute y⟩ →
        Comparison.ofJoin other = .ok ⟨x, op.opposite, .attribute y⟩ →
        r.thetaJoin s condition = .ok kept → r.thetaJoin s other = .ok others →
        Divided (fun row =>
            !(row.values.cell i).isNaN && !(row.values.cell (r.schema.arity + j)).isNaN)
          (r.pairs s) kept.rows others.rows := by
  refine ⟨fun condition op n hc => hr.selectCondition_numeric hx hc, ?_, fun s y j hs hy => ?_⟩
  · intro condition other op n kept others hc hother hkept hothers
    obtain rfl := Except.ok.inj ((hr.selectCondition_numeric hx hc).symm.trans hkept)
    obtain rfl := Except.ok.inj ((hr.selectCondition_numeric hx hother).symm.trans hothers)
    exact hr.divided_selection hx op n
  · obtain ⟨joined, hjoined⟩ := r.exists_joinSchema s
    refine ⟨⟨joined, hjoined, fun condition op hc => hr.thetaJoin_numeric hx hs hy hc hjoined⟩, ?_⟩
    intro condition other op kept others hc hother hkept hothers
    obtain rfl := Except.ok.inj ((hr.thetaJoin_numeric hx hs hy hc hjoined).symm.trans hkept)
    obtain rfl := Except.ok.inj ((hr.thetaJoin_numeric hx hs hy hother hjoined).symm.trans hothers)
    exact hr.divided_join hx hs hy op

/-- The doubles `2 ^ 53` and `2 ^ (-1074)`, both infinities and `NaN`. -/
def extremes : Relation :=
  ofColumn .float64 [.float (.ofBits 0x4340000000000000), .float (.ofBits 1),
    .float (.infinity false), .float (.infinity true), .float .nan]

/-- The whole numbers around `2 ^ 53`. -/
def neighbours : Relation :=
  ofColumn .integer64 [.int 9007199254740991, .int 9007199254740992, .int 9007199254740993]

/-- No double is `2 ^ 53 + 1`, and `2 ^ 53` is below it. -/
theorem comparisons_exact_extremes :
    (∃ kept others, extremes.selectCondition "x < 9007199254740993" = .ok kept ∧
      kept.rows.length = 3 ∧ extremes.selectCondition "x >= 9007199254740993" = .ok others ∧
      others.rows.length = 1 ∧
      Divided (fun row => !(row.values.cell 0).isNaN) extremes.rows kept.rows others.rows) ∧
    ∃ kept others, extremes.thetaJoin neighbours "x == x" = .ok kept ∧ kept.rows.length = 1 ∧
      extremes.thetaJoin neighbours "x != x" = .ok others ∧ others.rows.length = 14 ∧
      Divided (fun row => !(row.values.cell 0).isNaN && !(row.values.cell 1).isNaN)
        (extremes.pairs neighbours) kept.rows others.rows := by
  have hr : extremes.Sound := sound_ofColumn (by decide)
  have hs : neighbours.Sound := sound_ofColumn (by decide)
  have hx : extremes.schema.NumericAt "x" 0 := ⟨_, rfl, rfl, rfl⟩
  have hy : neighbours.schema.NumericAt "x" 0 := ⟨_, rfl, rfl, rfl⟩
  obtain ⟨-, hselections, hjoins⟩ := comparisons_exact hr hx
  obtain ⟨below, hbelow, hthree⟩ : ∃ kept, extremes.selectCondition "x < 9007199254740993" = .ok kept ∧
      kept.rows.length = 3 := exists_of_length (by decide +kernel)
  obtain ⟨above, habove, hone⟩ : ∃ kept, extremes.selectCondition "x >= 9007199254740993" = .ok kept ∧
      kept.rows.length = 1 := exists_of_length (by decide +kernel)
  obtain ⟨equal, hequal, honePair⟩ : ∃ joined, extremes.thetaJoin neighbours "x == x" = .ok joined ∧
      joined.rows.length = 1 := exists_of_length (by decide +kernel)
  obtain ⟨unequal, hunequal, hotherPairs⟩ : ∃ joined, extremes.thetaJoin neighbours "x != x" = .ok joined ∧
      joined.rows.length = 14 := exists_of_length (by decide +kernel)
  exact ⟨⟨below, above, hbelow, hthree, habove, hone,
      hselections _ _ .lt 9007199254740993 below above rfl rfl hbelow habove⟩,
    equal, unequal, hequal, honePair, hunequal, hotherPairs,
    (hjoins neighbours "x" 0 hs hy).2 _ _ .eq equal unequal rfl rfl hequal hunequal⟩

end Relation

end KeyedRelations
