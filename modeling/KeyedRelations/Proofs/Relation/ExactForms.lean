import KeyedRelations.Proofs.Key.Cuts
import KeyedRelations.Proofs.Relation.Scans
import KeyedRelations.Relation.Exact

/-!
# Exact forms

Rows are exactly equal when they have equal values at every position, where a `NaN` counts as equal to
any other. Every row that fits a schema has an exact form, and two rows that fit are exactly equal just
if their forms are the same. A form also tells how numbers compare, so no comparison with a number
tells values apart that are exactly equal.
-/

namespace KeyedRelations

/-! ## Numbers -/

theorem Extended.line_injective : Function.Injective Extended.line := by
  intro p q h
  have heq : p.compare q = .eq := (compares_line p q).eq_eq.2 h
  cases p <;> cases q <;> simp_all [Extended.compare, line]

theorem Double.isNaN_eq (x : Double) : x.isNaN = x.place?.isNone := by
  cases hnan : x.isNaN with
  | false =>
    obtain ⟨p, hp⟩ := exists_place hnan
    simp [hp]
  | true =>
    have hfinite : x.isFinite = false := by
      simp only [isNaN, Bool.and_eq_true, beq_iff_eq] at hnan
      simp [isFinite, hnan.1]
    simp [place?, hfinite, hnan]

namespace Value

theorem Number.compare_eq_none_left {m : Number} (hm : m.place? = none) (n : Number) :
    m.compare n = none := by
  cases m with
  | whole => cases hm
  | double x => simp [compare, hm]

/-- How a number compares depends on its place only. -/
theorem Number.compare_congr {m m' : Number} (h : m.place? = m'.place?) (n : Number) :
    m.compare n = m'.compare n := by
  cases hm : m.place? with
  | none => rw [compare_eq_none_left hm, compare_eq_none_left (h.symm.trans hm)]
  | some p =>
    cases hn : n.place? with
    | none => rw [compare_eq_none hn, compare_eq_none hn]
    | some q =>
      obtain ⟨o, ho, hcompares⟩ := compares_line hm hn
      obtain ⟨o', ho', hcompares'⟩ := compares_line (h.symm.trans hm) hn
      rw [ho, ho', hcompares.inj hcompares']

theorem Number.compare_eq_iff {m n : Number} :
    m.compare n = some .eq ↔ ∃ p, m.place? = some p ∧ n.place? = some p := by
  constructor
  · intro h
    cases hm : m.place? with
    | none => simp [compare_eq_none_left hm] at h
    | some p =>
      cases hn : n.place? with
      | none => simp [compare_eq_none hn] at h
      | some q =>
        obtain ⟨o, ho, hcompares⟩ := compares_line hm hn
        obtain rfl : o = .eq := by simpa [ho] using h
        exact ⟨p, rfl, congrArg some (Extended.line_injective hcompares).symm⟩
  · rintro ⟨p, hm, hn⟩
    obtain ⟨o, ho, hcompares⟩ := compares_line hm hn
    obtain rfl : o = .eq := hcompares.inj (show Ordering.eq.Compares p.line p.line from rfl)
    exact ho

/-- What a number is up to exact equality. -/
def Number.form (m : Number) : ExactValue :=
  match m.place? with
  | some place => .number place
  | none => .notANumber

theorem Number.form_eq_iff {m n : Number} : m.form = n.form ↔ m.place? = n.place? := by
  unfold form
  cases m.place? <;> cases n.place? <;> simp

/-! ## Values -/

/-- Whether two values are equal or neither of them is a number although both are doubles. -/
def equalsExactly (v w : Value) : Bool := v.same w || v.isNaN && w.isNaN

/-- What a number or a text is up to exact equality. It says nothing about other values. -/
def form (v : Value) : ExactValue :=
  match v, v.number? with
  | .text s, _ => .text s
  | _, some m => m.form
  | _, none => .notANumber

variable {d : Domain} {v w : Value}

theorem exact_eq_form (h : d.Holding v) : v.exact = .ok (some v.form) := by
  cases h with
  | whole => rfl
  | @double x =>
    unfold exact form Number.form
    cases hplace : x.place? <;> simp [unhashableKind?, number?, Number.place?, hplace]
  | text => rfl

theorem form_of_number {m : Number} (hm : v.number? = some m) : v.form = m.form := by
  cases v with
  | bool | int | float | nan =>
    cases hm
    rfl
  | _ => cases hm

theorem isNaN_of_number {m : Number} (hm : v.number? = some m) : v.isNaN = m.place?.isNone := by
  cases v with
  | bool | int =>
    cases hm
    rfl
  | float | nan =>
    cases hm
    exact Double.isNaN_eq _
  | _ => cases hm

/-- Values of one domain are exactly equal just if their forms are the same. -/
theorem equalsExactly_iff (hv : d.Holding v) (hw : d.Holding w) :
    v.equalsExactly w = true ↔ v.form = w.form := by
  unfold equalsExactly
  cases hkind : d.kind with
  | numeric =>
    obtain ⟨m, n, hm, hn, -, hsame⟩ := compare_numeric .eq hkind hv hw
    rw [hsame, isNaN_of_number hm, isNaN_of_number hn, form_of_number hm, form_of_number hn,
      Number.form_eq_iff, Bool.or_eq_true, Bool.and_eq_true, beq_iff_eq, Number.compare_eq_iff]
    cases m.place? <;> cases n.place? <;> simp [eq_comm]
  | text =>
    obtain ⟨s, t, rfl, rfl, -, hsame⟩ := compare_text .eq hkind hv hw
    simp [hsame, isNaN, form]

/-- Numbers of one form compare alike with every number. -/
theorem test_congr (hkind : d.kind = .numeric) (hv : d.Holding v) (hw : d.Holding w)
    (hform : v.form = w.form) (op : Operator) {x : Value} {k : Number} (hx : x.number? = some k) :
    op.test v x = op.test w x := by
  obtain ⟨m, hm, hv⟩ := compare_of_numeric hkind hv op
  obtain ⟨n, hn, hw⟩ := compare_of_numeric hkind hw op
  rw [form_of_number hm, form_of_number hn, Number.form_eq_iff] at hform
  have horder := Number.compare_congr hform k
  have hcompare : v.compare op x = w.compare op x := by
    rw [(hv x).1, (hw x).1, hx]
    exact congrArg Except.ok horder
  have hsame : v.same x = w.same x := by
    rw [(hv x).2, (hw x).2, hx, Option.any_some, Option.any_some, horder]
  cases op <;> simp only [Operator.test, hcompare, hsame]

end Value

/-! ## Rows -/

namespace Row

/-- Whether two rows are exactly equal: they have the same number of values, and values that are exactly
equal at every position. -/
def equalsExactly (a b : Row) : Bool := a.values.isEqv b.values Value.equalsExactly

/-- What a row of numbers and texts is up to exact equality. -/
def form (row : Row) : ExactRow := row.values.map Value.form

variable {domains : List Domain} {a b row : Row}

theorem Fits.exact_eq_form (h : row.Fits domains) : row.exact = .ok (some row.form) := by
  obtain ⟨t, rfl, hfit⟩ := h
  have hforms : t.mapM Value.exact = .ok (t.map fun v => some v.form) := by
    apply mapM_eq_ok
    intro v hv
    obtain ⟨d, hd⟩ := hfit.exists_holding v hv
    exact Value.exact_eq_form hd
  have hall : (t.map fun v => some v.form).mapM id = some (t.map Value.form) := by
    rw [List.mapM_map]
    exact List.mapM_pure
  unfold exact values
  rw [hforms]
  exact congrArg Except.ok hall

theorem getElem?_form {row : Row} {i : Nat} {v : Value} (h : row.value i = .ok v) :
    row.form[i]? = some v.form := by
  unfold value at h
  split at h
  · rename_i w hw
    obtain rfl := Except.ok.inj h
    rw [form, List.getElem?_map, hw]
    rfl
  · cases h

/-- Rows that fit are exactly equal just if their forms are the same. -/
theorem Fits.equalsExactly_iff (ha : a.Fits domains) (hb : b.Fits domains) :
    a.equalsExactly b = true ↔ a.form = b.form := by
  obtain ⟨t, rfl, ht⟩ := ha
  obtain ⟨u, rfl, hu⟩ := hb
  unfold equalsExactly form values
  dsimp only
  induction ht generalizing u with
  | nil =>
    cases hu
    simp
  | @cons d v domains t hv _ ih =>
    cases hu with
    | @cons _ w _ u hw hu =>
      have hhead := Value.equalsExactly_iff (Domain.holding_of_accepts hv)
        (Domain.holding_of_accepts hw)
      rw [List.isEqv_cons_cons, Bool.and_eq_true, hhead, ih _ hu, List.map_cons, List.map_cons,
        List.cons.injEq]

end Row

end KeyedRelations
