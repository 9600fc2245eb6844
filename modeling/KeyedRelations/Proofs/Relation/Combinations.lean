import KeyedRelations.Proofs.Relation.Merging

/-!
# Unions and differences

Rows that fit a schema, as those of every table do, are looked up by their forms in a hash set, and the
answers are those of a plain scan that compares every row with every other one exactly. The rows
themselves stay as they are. Relations whose columns have other domains are not combined.
-/

namespace KeyedRelations

/-! ## Compatible schemas -/

/-- Why rows of one list of domains are no rows of another: the lists are not of the same length, or
else there is a first position at which they differ. -/
inductive Domain.Differ : List Domain → List Domain → MismatchFault → Prop
  | arity {ds es : List Domain} (h : ds.length ≠ es.length) :
    Differ ds es (.arity ds.length es.length)
  | domain {ds es : List Domain} {i : Nat} {d e : Domain} (length_eq : ds.length = es.length)
    (before : ∀ j < i, ds[j]? = es[j]?) (left : ds[i]? = some d) (right : es[i]? = some e)
    (ne : d ≠ e) : Differ ds es (.domain i d e)

namespace Schema

variable {schema other : Schema}

theorem firstDifferent?_self (position : Nat) (ds : List Domain) :
    firstDifferent? position ds ds = none := by
  induction ds generalizing position with
  | nil => rfl
  | cons d ds ih => rw [firstDifferent?, if_pos rfl, ih]

theorem firstDifferent?_eq_some {ds es : List Domain} {position : Nat} {cause : MismatchFault}
    (h : firstDifferent? position ds es = some cause) :
    ∃ i d e, (∀ j < i, ds[j]? = es[j]?) ∧ ds[i]? = some d ∧ es[i]? = some e ∧ d ≠ e ∧
      cause = .domain (position + i) d e := by
  induction ds generalizing es position with
  | nil => cases h
  | cons d ds ih =>
    cases es with
    | nil => cases h
    | cons e es =>
      rw [firstDifferent?] at h
      split_ifs at h with heq
      · obtain ⟨i, d', e', hbefore, hleft, hright, hne, rfl⟩ := ih h
        refine ⟨i + 1, d', e', fun j hj => ?_, hleft, hright, hne, by rw [Nat.add_right_comm]; rfl⟩
        cases j with
        | zero => simp [heq]
        | succ j => simpa using hbefore j (Nat.lt_of_succ_lt_succ hj)
      · obtain rfl := Option.some.inj h
        exact ⟨0, d, e, by simp, rfl, rfl, heq, rfl⟩

theorem checkCompatible_ok (h : schema.domains = other.domains) :
    schema.checkCompatible other = .ok () := by
  have harity : schema.arity = other.arity := by rw [← length_domains, ← length_domains, h]
  simp [checkCompatible, mismatch?, harity, h, firstDifferent?_self]

theorem checkCompatible_error (h : schema.domains ≠ other.domains) :
    ∃ cause, Domain.Differ schema.domains other.domains cause ∧
      schema.checkCompatible other = .error (.mismatch cause) := by
  unfold checkCompatible mismatch?
  rw [← length_domains, ← length_domains]
  split_ifs with hlength
  · exact ⟨_, .arity hlength, rfl⟩
  · have hlength := not_ne_iff.1 hlength
    cases hfirst : firstDifferent? 0 schema.domains other.domains with
    | none => exact absurd (firstDifferent?_eq_none hlength hfirst) h
    | some cause =>
      obtain ⟨i, d, e, hbefore, hleft, hright, hne, rfl⟩ := firstDifferent?_eq_some hfirst
      refine ⟨_, ?_, rfl⟩
      rw [Nat.zero_add]
      exact .domain hlength hbefore hleft hright hne

end Schema

/-! ## Scans with a hash set -/

section Scans

variable {rows : List Row} (hforms : ∀ row ∈ rows, row.exact = .ok (some row.form))

include hforms

theorem exactRows_eq : exactRows rows = .ok (.ofList (rows.map Row.form)) := by
  unfold exactRows
  rw [mapM_eq_ok hforms]
  simp [bind, Except.bind, pure, Except.pure, List.filterMap_map]

/-- While the set holds the forms of the rows so far, the rows found new are those that a merge adds. -/
theorem unseen_eq {seen : Std.HashSet ExactRow} {before : List Row}
    (hseen : ∀ f, seen.contains f = true ↔ f ∈ before.map Row.form) :
    ∃ added, unseen seen rows = .ok added ∧ before ++ added = merge before rows := by
  induction rows generalizing seen before with
  | nil => exact ⟨[], rfl, List.append_nil before⟩
  | cons row rows ih =>
    obtain ⟨hrow, hrows⟩ := List.forall_mem_cons.1 hforms
    simp only [unseen, hrow, bind, Except.bind]
    change ∃ added, _ ∧ before ++ added = merge (addNew before row) rows
    by_cases hmem : row.form ∈ before.map Row.form
    · rw [if_pos ((hseen _).2 hmem), addNew_of_mem hmem]
      exact ih hrows hseen
    · have hinsert : ∀ f, (seen.insert row.form).contains f = true ↔
          f ∈ (before ++ [row]).map Row.form := by
        intro f
        rw [Std.HashSet.contains_insert, Bool.or_eq_true, beq_iff_eq, hseen, List.map_append,
          List.mem_append, List.map_singleton, List.mem_singleton, or_comm, eq_comm]
      obtain ⟨added, hadded, hmerge⟩ := ih hrows hinsert
      rw [if_neg (mt (hseen _).1 hmem), addNew_of_notMem hmem, hadded]
      exact ⟨row :: added, rfl, by rw [← hmerge, List.append_assoc]; rfl⟩

end Scans

namespace Relation

variable {r s : Relation}

theorem Sound.exact_eq_form (hr : r.Sound) : ∀ row ∈ r.rows, row.exact = .ok (some row.form) :=
  fun row hrow => (hr row hrow).exact_eq_form

theorem Sound.union_eq (hr : r.Sound) (hs : s.Sound) (h : r.schema.domains = s.schema.domains) :
    r.union s = .ok ⟨r.schema, merge r.rows s.rows⟩ := by
  have hseen : ∀ f, (Std.HashSet.ofList (r.rows.map Row.form)).contains f = true ↔
      f ∈ r.rows.map Row.form := by
    intro f
    rw [Std.HashSet.contains_ofList, List.contains_iff_mem]
  obtain ⟨added, hadded, hmerge⟩ := unseen_eq hs.exact_eq_form hseen
  unfold Relation.union
  rw [Schema.checkCompatible_ok h, exactRows_eq hr.exact_eq_form, ← hmerge]
  simp only [bind, Except.bind, hadded]
  rfl

theorem Sound.minus_eq (hr : r.Sound) (hs : s.Sound) (h : r.schema.domains = s.schema.domains) :
    r.minus s = .ok ⟨r.schema, without r.rows s.rows⟩ := by
  have hkept : keep (fun row => do
      return !(← row.exact).any (Std.HashSet.ofList (s.rows.map Row.form)).contains) r.rows =
        .ok (without r.rows s.rows) := by
    refine keep_eq_filter fun row hrow => ?_
    have hcontains : (Std.HashSet.ofList (s.rows.map Row.form)).contains row.form =
        decide (row.form ∈ s.rows.map Row.form) := by
      rw [Std.HashSet.contains_ofList, List.contains_eq_mem]
    rw [hr.exact_eq_form row hrow, decide_not, ← hcontains]
    rfl
  unfold Relation.minus
  rw [Schema.checkCompatible_ok h, exactRows_eq hs.exact_eq_form]
  simp only [bind, Except.bind] at hkept ⊢
  rw [hkept]
  rfl

section Refused

variable {fault : Fault} (h : r.schema.checkCompatible s.schema = .error fault)

include h

theorem union_refused : r.union s = .error fault := by
  unfold Relation.union
  rw [h]
  rfl

theorem minus_refused : r.minus s = .error fault := by
  unfold Relation.minus
  rw [h]
  rfl

end Refused

end Relation

/-! ## Plain scans -/

/-- Rows with one more at the end, unless it is exactly equal to one of them. -/
def addUnequal (rows : List Row) (row : Row) : List Row :=
  if rows.any row.equalsExactly then rows else rows ++ [row]

section Plain

variable {domains : List Domain} {rows others : List Row} {row : Row}

theorem any_equalsExactly (hrow : row.Fits domains) (hrows : ∀ row ∈ rows, row.Fits domains) :
    rows.any row.equalsExactly = true ↔ row.form ∈ rows.map Row.form := by
  rw [List.any_eq_true, List.mem_map]
  constructor
  · rintro ⟨other, hother, heq⟩
    exact ⟨other, hother, ((hrow.equalsExactly_iff (hrows other hother)).1 heq).symm⟩
  · rintro ⟨other, hother, heq⟩
    exact ⟨other, hother, (hrow.equalsExactly_iff (hrows other hother)).2 heq.symm⟩

theorem foldl_addUnequal (hrows : ∀ row ∈ rows, row.Fits domains)
    (hothers : ∀ row ∈ others, row.Fits domains) :
    others.foldl addUnequal rows = merge rows others := by
  induction others using List.reverseRecOn with
  | nil => rfl
  | append_singleton others row ih =>
    obtain ⟨hothers, hrow⟩ := List.forall_mem_append.1 hothers
    have hmerged : ∀ other ∈ merge rows others, other.Fits domains := fun other hother =>
      (mem_or_mem_of_mem_merge hother).elim (hrows other) (hothers other)
    rw [List.foldl_concat, ih hothers, merge_concat]
    unfold addUnequal addNew
    simp only [any_equalsExactly (hrow row List.mem_cons_self) hmerged]

theorem filter_unequal (hrows : ∀ row ∈ rows, row.Fits domains)
    (hothers : ∀ row ∈ others, row.Fits domains) :
    (rows.filter fun row => !others.any row.equalsExactly) = without rows others := by
  refine List.filter_congr fun row hrow => ?_
  rw [decide_not, Bool.not_inj_iff, Bool.eq_iff_iff, decide_eq_true_eq]
  exact any_equalsExactly (hrows row hrow) hothers

end Plain

theorem Domain.Differ.position?_eq_none {ds es : List Domain} {cause : MismatchFault}
    (h : Differ ds es cause) : (Fault.mismatch cause).position? = none ↔ ds.length ≠ es.length := by
  cases h with
  | arity hlength => exact iff_of_true rfl hlength
  | domain hlength => exact iff_of_false (by simp [Fault.position?]) (not_not.2 hlength)

namespace Relation

/-- The union of relations of the same domains has the rows of the first in order, then each row of the
second that is not exactly equal to a row so far; the difference has the rows of the first, in order and
as often as they occur, that are not exactly equal to any row of the second. Both have the schema of the
first. Relations of other domains are refused, with the first position at which the domains differ if
there are as many of them. -/
theorem union_minus_eq_scans {r s : Relation} (hr : r.Sound) (hs : s.Sound) :
    (r.schema.domains = s.schema.domains →
      r.union s = .ok ⟨r.schema, s.rows.foldl addUnequal r.rows⟩ ∧
      r.minus s = .ok ⟨r.schema, r.rows.filter fun row => !s.rows.any row.equalsExactly⟩) ∧
    (r.schema.domains ≠ s.schema.domains →
      ∃ cause, r.union s = .error (.mismatch cause) ∧ r.minus s = .error (.mismatch cause) ∧
        Domain.Differ r.schema.domains s.schema.domains cause ∧
        ((Fault.mismatch cause).position? = none ↔ r.schema.arity ≠ s.schema.arity)) := by
  constructor
  · intro h
    have hfits : ∀ row ∈ s.rows, row.Fits r.schema.domains := fun row hrow => h ▸ hs row hrow
    rw [hr.union_eq hs h, hr.minus_eq hs h, foldl_addUnequal hr hfits, filter_unequal hr hfits]
    exact ⟨rfl, rfl⟩
  · intro h
    obtain ⟨cause, hdiffer, hcheck⟩ := Schema.checkCompatible_error h
    have hposition := hdiffer.position?_eq_none
    rw [Schema.length_domains, Schema.length_domains] at hposition
    exact ⟨cause, union_refused hcheck, minus_refused hcheck, hdiffer, hposition⟩

/-- A relation of one column with the given values. -/
def ofColumn (d : Domain) (values : List Value) : Relation where
  schema := {
    columns := [⟨"x", d⟩]
    key := ["x"]
    names_nodup := by simp
    key_ne_nil := by simp
    key_subset := by simp }
  rows := values.map fun v => .tuple [v]

theorem sound_ofColumn {d : Domain} {values : List Value}
    (h : values.all d.accepts = true) : (ofColumn d values).Sound := by
  intro row hrow
  obtain ⟨v, hv, rfl⟩ := List.mem_map.1 hrow
  exact ⟨[v], rfl, .cons (List.all_eq_true.1 h v hv) .nil⟩

/-- A `NaN`, a zero and a number that is repeated. -/
def doubles : Relation :=
  ofColumn .float64 [.float .nan, .float (.ofBits 0), .float (.ofBits 2), .float (.ofBits 2)]

/-- Another `NaN`, the negative zero and another number that is repeated. -/
def otherDoubles : Relation :=
  ofColumn .float64 [.float (.ofBits 0xfff8000000000001), .float (.ofBits 0x8000000000000000),
    .float (.ofBits 5), .float (.ofBits 5)]

theorem union_minus_eq_scans_doubles :
    doubles.Sound ∧ otherDoubles.Sound ∧
    doubles.union otherDoubles = .ok (ofColumn .float64 [.float .nan, .float (.ofBits 0),
      .float (.ofBits 2), .float (.ofBits 2), .float (.ofBits 5)]) ∧
    doubles.minus otherDoubles = .ok (ofColumn .float64 [.float (.ofBits 2), .float (.ofBits 2)]) ∧
    ∃ cause, doubles.union (ofColumn .string []) = .error (.mismatch cause) ∧
      (Fault.mismatch cause).position? = some 0 := by
  have hr : doubles.Sound := sound_ofColumn (by decide)
  have hs : otherDoubles.Sound := sound_ofColumn (by decide)
  have ht : (ofColumn .string []).Sound := sound_ofColumn rfl
  obtain ⟨hunion, hminus⟩ := (union_minus_eq_scans hr hs).1 rfl
  obtain ⟨cause, hcause, -, hdiffer, -⟩ := (union_minus_eq_scans hr ht).2 (by decide)
  refine ⟨hr, hs, hunion.trans rfl, hminus.trans rfl, cause, hcause, ?_⟩
  change Domain.Differ [.float64] [.string] cause at hdiffer
  cases hdiffer with
  | arity h => exact absurd rfl h
  | domain _ _ left _ _ =>
    obtain ⟨hi, -⟩ := List.getElem?_eq_some_iff.1 left
    obtain rfl := Nat.lt_one_iff.1 hi
    rfl

end Relation

end KeyedRelations
