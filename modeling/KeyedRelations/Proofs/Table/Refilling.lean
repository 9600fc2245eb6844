import KeyedRelations.Proofs.Table.BulkLoading
import KeyedRelations.Proofs.Table.Reloading

/-!
# Tables filled again

An empty table that is filled with the rows of another one refuses those whose key has come before. So
it has the first rows of each key, in order, all of them in its index, and misses none if no key
was repeated.
-/

namespace KeyedRelations

namespace Table

variable {t : Table}

theorem InStep.key_mem (ht : t.InStep) (hfree : t.FreeOfNaN) {row : Row} (hrow : row ∈ t.rows) :
    t.keyOf row ∈ {key | Key.Typed t.schema.keyDomains key ∧ key.hasNaN = false} :=
  ⟨(Schema.fitting_keyOf (ht.fitting row hrow)).typed, hfree row hrow⟩

theorem InStep.hasKey_eq (ht : t.InStep) (hfree : t.FreeOfNaN) (key : Key) :
    t.hasKey key = t.rows.any fun row => Key.order.same (t.keyOf row) key := by
  unfold hasKey
  rw [(ht.represents hfree).perm.any_eq, List.any_map]
  rfl

/-- A table that repeats no key has no other rows than the first ones. -/
theorem InStep.firsts_eq (ht : t.InStep) (hfree : t.FreeOfNaN) : t.firsts = t.rows := by
  apply eraseDupsBy_eq_self
  refine (ht.unique hfree).imp_of_mem fun {a b} ha hb hdiffer => ?_
  rw [Key.same_comm (ht.key_mem hfree hb) (ht.key_mem hfree ha)]
  exact hdiffer

/-- What a table without rows becomes when rows are inserted into it one after the other. -/
structure Refilled (u : Table) (session : SessionId) (name : String) (schema : Schema)
    (rows : List Row) : Prop where
  inStep : u.InStep
  ordered : u.Ordered
  session_eq : u.session = session
  name_eq : u.name = name
  schema_eq : u.schema = schema
  rows_eq : u.rows =
    rows.eraseDupsBy fun a b => Key.order.same (schema.keyOf a.values) (schema.keyOf b.values)

variable {u : Table} {session : SessionId} {name : String} {schema : Schema} {rows : List Row}

theorem Refilled.freeOfNaN (hu : u.Refilled session name schema rows)
    (hfree : ∀ row ∈ rows, (schema.keyOf row.values).hasNaN = false) : u.FreeOfNaN := by
  intro row hrow
  rw [hu.rows_eq] at hrow
  unfold keyOf
  rw [hu.schema_eq]
  exact hfree row (eraseDupsBy_subset _ hrow)

/-- A row goes into the table just if its key is new. -/
theorem Refilled.insert (hu : u.Refilled session name schema rows)
    (hfree : ∀ row ∈ rows, (schema.keyOf row.values).hasNaN = false) {row : Row}
    (hfits : row.Fits schema.domains) (hnan : (schema.keyOf row.values).hasNaN = false) :
    (u.insert row).1.Refilled session name schema (rows ++ [row]) := by
  obtain ⟨values, rfl, hfit⟩ := hfits
  have hfreeHere := hu.freeOfNaN hfree
  obtain rfl := hu.schema_eq
  have hvalid := Schema.validate_tuple hfit
  have htyped := (Schema.fitting_keyOf hfit).typed
  have hfreeRow : u.schema.FreeOfNaN (.tuple values) := by
    intro others hothers
    cases hvalid.symm.trans hothers
    exact hnan
  have hinserted :=
    hu.ordered.inserted hfreeHere hfreeRow (Schema.worded_of_validate hvalid)
  have hinStep := hu.inStep.insert (.tuple values)
  have hordered := hu.ordered.insert (.tuple values)
  have htaken : (u.rows.any fun other =>
      Key.order.same (u.schema.keyOf values) (u.schema.keyOf other.values)) =
        u.hasKey (u.schema.keyOf values) := by
    rw [hu.inStep.hasKey_eq hfreeHere, Bool.eq_iff_iff]
    simp only [List.any_eq_true]
    refine exists_congr fun other => and_congr_right fun hother => ?_
    exact Eq.congr_left (Key.same_comm ⟨htyped, hnan⟩ (hu.inStep.key_mem hfreeHere hother))
  have hrows := eraseDupsBy_concat (r := fun a b : Row =>
    Key.order.same (u.schema.keyOf a.values) (u.schema.keyOf b.values)) (.tuple values) rows
  rw [← hu.rows_eq] at hrows
  generalize u.insert (.tuple values) = outcome at hinserted hinStep hordered ⊢
  cases hinserted with
  | unfit invalid => cases hvalid.symm.trans invalid
  | taken valid present =>
    cases hvalid.symm.trans valid
    refine ⟨hinStep, hordered, hu.session_eq, hu.name_eq, rfl, ?_⟩
    exact (hrows.trans (if_pos (htaken.trans present))).symm
  | stored valid new _ =>
    cases hvalid.symm.trans valid
    refine ⟨hinStep, hordered, hu.session_eq, hu.name_eq, rfl, ?_⟩
    exact (hrows.trans (if_neg (Bool.eq_false_iff.1 (htaken.trans new)))).symm

theorem refilled_insertAll (session : SessionId) (name : String) (schema : Schema) {rows : List Row}
    (hfits : ∀ row ∈ rows, row.Fits schema.domains)
    (hfree : ∀ row ∈ rows, (schema.keyOf row.values).hasNaN = false) :
    ((Table.empty session name schema).insertAll rows).1.Refilled session name schema rows := by
  induction rows using List.reverseRecOn with
  | nil => exact ⟨inStep_empty .., ordered_empty .., rfl, rfl, rfl, rfl⟩
  | append_singleton rows row ih =>
    obtain ⟨hfitsAll, hfit⟩ := List.forall_mem_append.1 hfits
    obtain ⟨hfreeAll, hnan⟩ := List.forall_mem_append.1 hfree
    have hu := ih hfitsAll hfreeAll
    rw [insertAll_append]
    exact hu.insert hfreeAll (hfit row List.mem_cons_self) (hnan row List.mem_cons_self)

end Table

end KeyedRelations
