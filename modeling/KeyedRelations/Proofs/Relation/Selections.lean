import KeyedRelations.Proofs.Relation.Checks
import KeyedRelations.Proofs.Relation.CombinationLaws

/-!
# Selections by conditions

A condition is refused for its own sake or because of the schema, or it is a test of rows. Such a test
does not tell rows apart that are exactly equal, so a selection can be made before a union or a
difference as well as after it.
-/

namespace KeyedRelations

/-! ## Conditions as tests of rows -/

/-- Whether the value of a row at a position compares as the condition says. -/
def Comparison.selects (c : Comparison) (i : Nat) (row : Row) : Except Fault Bool := do
  c.test (← row.value i) c.right.toValue

/-- Whether a condition keeps a row; it does not where the comparison has no answer. -/
def Comparison.keeps (c : Comparison) (i : Nat) (row : Row) : Bool :=
  (c.selects i row).toOption.getD false

/-- What a condition keeps depends on the one value that it looks at. -/
theorem Comparison.keeps_congr (c : Comparison) {a b : Row} {i j : Nat} (h : a.value i = b.value j) :
    c.keeps i a = c.keeps j b := by
  unfold keeps selects
  rw [h]

/-- Whether a schema has the attribute of a condition as a numeric column at a position. -/
def Schema.Accepts (schema : Schema) (c : Comparison) (i : Nat) : Prop :=
  ∃ column, schema.columns[i]? = some column ∧ column.name = c.left ∧ column.domain.kind = .numeric

section Numeric

variable {domains : List Domain} {c : Comparison} {i : Nat} {d : Domain} {n : Int}
  (hi : domains[i]? = some d) (hkind : d.kind = .numeric) (hright : c.right = .literal n)

include hi hkind hright

theorem Row.Fits.exists_selects {row : Row} (h : row.Fits domains) :
    ∃ answer, c.selects i row = .ok answer := by
  obtain ⟨v, hv, hholding⟩ := h.exists_value hi
  obtain ⟨answer, hanswer⟩ := c.exists_test (Value.exists_compare_whole _ hkind hholding n)
  refine ⟨answer, ?_⟩
  unfold Comparison.selects
  rw [hv, hright]
  exact hanswer

theorem Row.Fits.selects_congr {a b : Row} (ha : a.Fits domains) (hb : b.Fits domains)
    (hform : a.form = b.form) : c.selects i a = c.selects i b := by
  obtain ⟨v, hv, hholding⟩ := ha.exists_value hi
  obtain ⟨w, hw, hholding'⟩ := hb.exists_value hi
  have heq : v.form = w.form :=
    Option.some.inj ((getElem?_form hv).symm.trans (hform ▸ getElem?_form hw))
  have htest := Value.test_congr hkind hholding hholding' heq c.operator
    (show (Value.int n).number? = some (.whole n) from rfl)
  unfold Comparison.selects Comparison.test
  rw [hv, hw, hright]
  exact congrArg (Except.mapError Fault.incomparable) htest

end Numeric

namespace Relation

theorem selectWhere_eq_filter {r : Relation} {p : Predicate} {q : Row → Bool}
    (h : ∀ row ∈ r.rows, p row = .ok (q row)) :
    r.selectWhere p = .ok ⟨r.schema, r.rows.filter q⟩ := by
  unfold selectWhere
  rw [keep_eq_filter h]
  rfl

section Accepted

variable {r kept : Relation} {condition : String} {c : Comparison} {i : Nat}
  (hc : Comparison.ofSelection condition = .ok c)

include hc

theorem accepts_of_selectCondition (h : r.selectCondition condition = .ok kept) :
    ∃ i, r.schema.Accepts c i := by
  obtain ⟨c', hc', h⟩ := exists_of_bind_eq_ok h
  obtain rfl := Except.ok.inj (hc.symm.trans hc')
  obtain ⟨⟨i, column⟩, hcolumn, h⟩ := exists_of_bind_eq_ok h
  obtain ⟨hfound, hname⟩ := Schema.resolve_eq_ok_iff.1 hcolumn
  dsimp only at h
  split_ifs at h with hkind
  · cases h
  · exact ⟨i, column, hfound, hname, not_not.1 hkind⟩

/-- A condition that a schema accepts filters the rows. -/
theorem selectCondition_eq (hi : r.schema.Accepts c i) (hr : r.Sound) :
    r.selectCondition condition = .ok ⟨r.schema, r.rows.filter (c.keeps i)⟩ := by
  obtain ⟨column, hfound, hname, hkind⟩ := hi
  obtain ⟨n, hright⟩ := Comparison.right_of_ofSelection hc
  have hcolumn := Schema.resolve_eq_ok_iff.2 ⟨hfound, hname⟩
  unfold selectCondition
  simp only [hc, hcolumn, bind, Except.bind]
  rw [if_neg (not_not.2 hkind)]
  refine selectWhere_eq_filter fun row hrow => ?_
  obtain ⟨answer, hanswer⟩ :=
    (hr row hrow).exists_selects (Schema.domain_of_resolve hcolumn) hkind hright
  unfold Comparison.keeps
  rw [hanswer]
  exact hanswer

end Accepted

/-- A condition is refused by a check, whatever the rows of the schema are, or it selects the rows of
which a test holds. The test does not tell exactly equal rows apart. -/
theorem selectCondition_cases (schema : Schema) (condition : String) :
    (∃ fault : Fault, fault.OfCheck ∧
      ∀ rows, selectCondition ⟨schema, rows⟩ condition = .error fault) ∨
    ∃ p : Row → Bool,
      (∀ rows, Sound ⟨schema, rows⟩ →
        selectCondition ⟨schema, rows⟩ condition = .ok ⟨schema, rows.filter p⟩) ∧
      ∀ rows, Sound ⟨schema, rows⟩ → RespectsForms p rows := by
  unfold selectCondition
  cases hc : Comparison.ofSelection condition with
  | error fault => exact .inl ⟨fault, Comparison.checked_ofSelection _ _ hc, fun rows => rfl⟩
  | ok c =>
    obtain ⟨n, hright⟩ := Comparison.right_of_ofSelection hc
    cases hcolumn : schema.resolve c.left with
    | error fault =>
      exact .inl ⟨fault, schema.checked_resolve _ _ hcolumn,
        fun rows => by simp only [bind, Except.bind, hcolumn]⟩
    | ok found =>
      obtain ⟨i, column⟩ := found
      have hi := Schema.domain_of_resolve hcolumn
      simp only [bind, Except.bind, hcolumn]
      by_cases hkind : column.domain.kind = .numeric
      · obtain ⟨hfound, hname⟩ := Schema.resolve_eq_ok_iff.1 hcolumn
        refine .inr ⟨c.keeps i, fun rows hrows => ?_, fun rows hrows a ha b hb hform => ?_⟩
        · have haccepted := selectCondition_eq hc ⟨column, hfound, hname, hkind⟩ hrows
          simpa only [selectCondition, hc, hcolumn, bind, Except.bind] using haccepted
        · unfold Comparison.keeps
          rw [(hrows a ha).selects_congr hi hkind hright (hrows b hb) hform]
      · exact .inl ⟨_, .condition _ _, fun rows => if_pos hkind⟩

/-- A selection by a condition that is accepted can be made before a union or a difference of relations
of one schema, or after it. -/
theorem selectCondition_distributes {r s kept : Relation} (hr : r.Sound) (hs : s.Sound)
    (hschema : r.schema = s.schema) {condition : String}
    (hkept : r.selectCondition condition = .ok kept) :
    Coincide (do (← r.union s).selectCondition condition)
      (do (← r.selectCondition condition).union (← s.selectCondition condition)) ∧
    Coincide (do (← r.minus s).selectCondition condition)
      (do (← r.selectCondition condition).minus (← s.selectCondition condition)) := by
  obtain ⟨schema, rows⟩ := r
  obtain ⟨schema', others⟩ := s
  obtain rfl : schema = schema' := hschema
  rcases selectCondition_cases schema condition with ⟨fault, -, hrefused⟩ | ⟨p, hselect, hforms⟩
  · rw [hrefused] at hkept
    cases hkept
  · have hleft := hselect rows hr
    have hright := hselect others hs
    have hleftSound := hr.selectCondition hleft
    have hrightSound := hs.selectCondition hright
    have hunion := hr.union_eq hs rfl
    have hminus := hr.minus_eq hs rfl
    have hp : RespectsForms p (rows ++ others) := hforms _ (List.forall_mem_append.2 ⟨hr, hs⟩)
    rw [hleft, hright, hunion, hminus]
    refine ⟨⟨_, hselect _ (hr.union hs hunion), ?_⟩, ⟨_, hselect _ (hr.minus hminus), ?_⟩⟩
    · rw [filter_merge hp]
      exact hleftSound.union_eq hrightSound rfl
    · rw [filter_without hp]
      exact hleftSound.minus_eq hrightSound rfl

/-- The zeros of both signs are chosen, and one of them is left in the union. -/
theorem selectCondition_distributes_zeros :
    let chosen (r : Relation) := r.selectCondition "x <= 0"
    ∃ kept, chosen doubles = .ok kept ∧ kept.rows.length = 1 ∧
      Coincide (do chosen (← doubles.union otherDoubles))
        (do (← chosen doubles).union (← chosen otherDoubles)) ∧
      Coincide (do chosen (← doubles.minus otherDoubles))
        (do (← chosen doubles).minus (← chosen otherDoubles)) := by
  intro chosen
  have hr : doubles.Sound := sound_ofColumn (by decide)
  have hs : otherDoubles.Sound := sound_ofColumn (by decide)
  have hone : (doubles.selectCondition "x <= 0").toOption.map (·.rows.length) = some 1 := by
    decide +kernel
  cases hkept : doubles.selectCondition "x <= 0" with
  | error fault =>
    rw [hkept] at hone
    cases hone
  | ok kept =>
    obtain ⟨hunion, hminus⟩ := selectCondition_distributes hr hs rfl hkept
    rw [hkept] at hone
    exact ⟨kept, hkept, Option.some.inj hone, hunion, hminus⟩

end Relation

end KeyedRelations
