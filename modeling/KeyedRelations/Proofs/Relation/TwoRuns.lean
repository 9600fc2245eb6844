import KeyedRelations.Operation
import KeyedRelations.Proofs.Relation.Joins
import KeyedRelations.Proofs.Relation.Selections

/-!
# Two runs of an operator

Whatever an operator refuses, it refuses before it looks at a row. So two runs on relations of the same
schemas, with any rows that fit, both succeed or both fail, and then for the same reason.
-/

namespace KeyedRelations

/-- Whether two computations give relations of one schema, or fail at one check. -/
inductive Parallel : Except Fault Relation → Except Fault Relation → Prop
  | ok (schema : Schema) (rows rows' : List Row) : Parallel (.ok ⟨schema, rows⟩) (.ok ⟨schema, rows'⟩)
  | error {fault : Fault} (h : fault.OfCheck) : Parallel (.error fault) (.error fault)

section Rules

variable {α β : Type}

/-- A check that both runs begin with. -/
theorem Checked.parallel {x : Except Fault α} {f g : α → Except Fault Relation} (hx : Checked x)
    (hnext : ∀ a, x = .ok a → Parallel (f a) (g a)) : Parallel (x >>= f) (x >>= g) := by
  cases x with
  | ok a => exact hnext a rfl
  | error fault => exact .error (hx fault rfl)

/-- A scan that fails in neither run. -/
theorem parallel_scan {x : Except Fault α} {y : Except Fault β} {f : α → Except Fault Relation}
    {g : β → Except Fault Relation} (hx : ∃ a, x = .ok a) (hy : ∃ b, y = .ok b)
    (hnext : ∀ a b, Parallel (f a) (g b)) : Parallel (x >>= f) (y >>= g) := by
  obtain ⟨a, rfl⟩ := hx
  obtain ⟨b, rfl⟩ := hy
  exact hnext a b

end Rules

namespace Relation

/-- Two relations of one schema, the rows of which fit. -/
inductive Twins : Relation → Relation → Prop
  | intro {schema : Schema} {rows rows' : List Row} (h : Sound ⟨schema, rows⟩)
    (h' : Sound ⟨schema, rows'⟩) : Twins ⟨schema, rows⟩ ⟨schema, rows'⟩

variable {r r' s s' : Relation}

theorem twins_of_schema_eq (hschema : r'.schema = r.schema) (hr : r.Sound) (hr' : r'.Sound) :
    r.Twins r' := by
  cases r
  cases r'
  obtain rfl := hschema
  exact ⟨hr, hr'⟩

/-! ## Operators -/

theorem Twins.project (h : r.Twins r') (names : List String) :
    Parallel (r.project names) (r'.project names) := by
  obtain @⟨schema, rows, rows', hr, hr'⟩ := h
  cases hschema : schema.project names with
  | error fault =>
    unfold Relation.project
    dsimp only
    rw [hschema]
    exact .error (schema.checked_project names fault hschema)
  | ok projected =>
    obtain ⟨positions, hpositions, -⟩ := exists_of_bind_eq_ok hschema
    rw [hr.project_eq hpositions hschema, hr'.project_eq hpositions hschema]
    exact .ok _ _ _

theorem Twins.selectCondition (h : r.Twins r') (condition : String) :
    Parallel (r.selectCondition condition) (r'.selectCondition condition) := by
  obtain ⟨hr, hr'⟩ := h
  rcases selectCondition_cases _ condition with ⟨fault, hfault, hrefused⟩ | ⟨p, hselect, -⟩
  · rw [hrefused, hrefused]
    exact .error hfault
  · rw [hselect _ hr, hselect _ hr']
    exact .ok _ _ _

theorem Twins.union (hr : r.Twins r') (hs : s.Twins s') : Parallel (r.union s) (r'.union s') := by
  obtain @⟨schema, _, _, hr, hr'⟩ := hr
  obtain @⟨other, _, _, hs, hs'⟩ := hs
  by_cases h : schema.domains = other.domains
  · rw [hr.union_eq hs h, hr'.union_eq hs' h]
    exact .ok _ _ _
  · obtain ⟨cause, -, hcheck⟩ := Schema.checkCompatible_error h
    rw [union_refused hcheck, union_refused hcheck]
    exact .error (.mismatch cause)

theorem Twins.minus (hr : r.Twins r') (hs : s.Twins s') : Parallel (r.minus s) (r'.minus s') := by
  obtain @⟨schema, _, _, hr, hr'⟩ := hr
  obtain @⟨other, _, _, hs, hs'⟩ := hs
  by_cases h : schema.domains = other.domains
  · rw [hr.minus_eq hs h, hr'.minus_eq hs' h]
    exact .ok _ _ _
  · obtain ⟨cause, -, hcheck⟩ := Schema.checkCompatible_error h
    rw [minus_refused hcheck, minus_refused hcheck]
    exact .error (.mismatch cause)

theorem Twins.join (hr : r.Twins r') (hs : s.Twins s') (join : Join) :
    Parallel (join.result r s) (join.result r' s') := by
  obtain ⟨hr, hr'⟩ := hr
  obtain ⟨hs, hs'⟩ := hs
  rcases join.result_cases _ _ with ⟨fault, hfault, hrefused⟩ | ⟨joined, matched, -, hresult⟩
  · rw [hrefused, hrefused]
    exact .error hfault
  · rw [hresult _ _ hr hs, hresult _ _ hr' hs']
    exact .ok _ _ _

end Relation

/-! ## Tables -/

namespace Table

/-- Two well-typed tables of one schema. -/
structure Twins (t t' : Table) : Prop where
  schema_eq : t'.schema = t.schema
  left : t.WellTyped
  right : t'.WellTyped

variable {t t' u u' : Table}

theorem Twins.relations (h : t.Twins t') : t.toRelation.Twins t'.toRelation :=
  Relation.twins_of_schema_eq h.schema_eq h.left.rows h.right.rows

/-- A search for a key of the schema does not fail. -/
theorem TypedIndex.exists_search (h : t.TypedIndex) {key : Key}
    (hkey : Fitting t.schema.keyDomains key) :
    ∃ row?, (t.index.find? Key.order key).mapError Fault.incomparable = .ok row? := by
  obtain ⟨row?, hfind⟩ := h.exists_find? hkey.typed
  refine ⟨row?, ?_⟩
  rw [hfind]
  rfl

theorem Twins.selectKey (h : t.Twins t') (v : Value) :
    Parallel (do t.selectKey (← t.schema.coerceKey v)) (do t'.selectKey (← t'.schema.coerceKey v)) := by
  unfold Table.selectKey
  rw [h.schema_eq]
  apply (Schema.checked_coerceKey _ v).parallel
  intro key hkey
  have hfit := Schema.fitting_of_coerceKey hkey
  apply parallel_scan (h.left.index.exists_search hfit)
    (h.right.index.exists_search (h.schema_eq ▸ hfit))
  intro _ _
  exact .ok _ _ _

/-- The line that an operation on a table leaves is written before anything else is done. -/
theorem Twins.unary (h : t.Twins t') {op : UnaryOperation} (hwhere : ∀ p, op ≠ .selectWhere p) :
    Parallel (do let _ ← op.line t; op.result t) (do let _ ← op.line t'; op.result t') := by
  cases op with
  | project names => exact h.relations.project names
  | selectWhere p => exact absurd rfl (hwhere p)
  | selectCondition condition => exact h.relations.selectCondition condition
  | selectKey v =>
    have hkey := h.selectKey v
    have hchecked := Schema.checked_coerceKey t.schema v
    simp only [UnaryOperation.line, UnaryOperation.result]
    rw [h.schema_eq] at hkey ⊢
    cases hcoerced : t.schema.coerceKey v with
    | error fault => exact .error (hchecked fault hcoerced)
    | ok key =>
      rw [hcoerced] at hkey
      exact hkey

theorem Twins.binary (ht : t.Twins t') (hu : u.Twins u') {op : BinaryOperation}
    (hindex : op ≠ .indexJoin) (hhash : op ≠ .hashJoin) :
    Parallel (op.result t u) (op.result t' u') := by
  cases op with
  | union => exact ht.relations.union hu.relations
  | minus => exact ht.relations.minus hu.relations
  | equiJoin left right => exact ht.relations.join hu.relations (.equi left right)
  | thetaJoin condition => exact ht.relations.join hu.relations (.theta condition)
  | naturalJoin projectRight => exact ht.relations.join hu.relations (.natural projectRight)
  | indexJoin => exact absurd rfl hindex
  | hashJoin => exact absurd rfl hhash

end Table

end KeyedRelations
