import KeyedRelations.Proofs.Schema.Definition
import KeyedRelations.Proofs.Table.Rows

/-!
# Tables from snapshots

A table whose rows fit its schema can be made again from its snapshot: the schema is accepted, and so
is every row, whether its key has come before or has a `NaN` in it. A snapshot is refused only because
its schema is not one, or because a row does not fit it.
-/

namespace KeyedRelations

theorem Schema.error_validate {schema : Schema} {row : Row} {fault : Fault}
    (h : schema.validate row = .error fault) : ∃ cause, fault = .typing cause := by
  dsimp only [validate] at h
  split_ifs at h
  · cases h
    exact ⟨_, rfl⟩
  · split at h
    · cases h
      exact ⟨_, rfl⟩
    · cases h

/-! ## Rows -/

theorem Key.definedOn_typed (domains : List Domain) :
    Key.order.DefinedOn {key | Key.Typed domains key} where
  less _ ha _ hb := (exists_order ha hb).1
  greater _ ha _ hb := (exists_order ha hb).2

namespace Table

/-- Whether the keys in the index have values of the key domains. -/
def TypedIndex (t : Table) : Prop :=
  ∀ e ∈ t.index.toList, Key.Typed t.schema.keyDomains e.1

/-- Whether the rows fit the schema, and the keys in the index have values of the key domains. -/
structure WellTyped (t : Table) : Prop where
  rows : t.toRelation.Sound
  index : t.TypedIndex

variable {t : Table}

section Add

variable {values : Tuple} (hfit : Fitting t.schema.domains values)

include hfit

/-- A row whose key has come before is stored without an entry. -/
theorem addLoaded_found {other : Row}
    (hfind : t.index.find? Key.order (t.schema.keyOf values) = .ok (some other)) :
    t.addLoaded (.tuple values) = .ok { t with rows := t.rows ++ [.tuple values] } := by
  simp only [addLoaded, Schema.validate_tuple hfit, hfind, bind, Except.bind]
  rfl

theorem addLoaded_new (hfind : t.index.find? Key.order (t.schema.keyOf values) = .ok none)
    {index : TableIndex}
    (hinsert : t.index.insertAs t.name (t.schema.keyOf values) (.tuple values) = (index, .ok ())) :
    t.addLoaded (.tuple values) = .ok { t with rows := t.rows ++ [.tuple values], index } := by
  simp only [addLoaded, Schema.validate_tuple hfit, hfind, bind, Except.bind]
  dsimp only [Except.mapError]
  rw [hinsert]
  rfl

end Add

theorem TypedIndex.exists_find? (ht : t.TypedIndex) {key : Key}
    (hkey : Key.Typed t.schema.keyDomains key) : ∃ found?, t.index.find? Key.order key = .ok found? :=
  Index.Node.exists_find? (Key.definedOn_typed t.schema.keyDomains) hkey ht

/-- A key that is not found can be inserted. -/
theorem TypedIndex.exists_insertAs (ht : t.TypedIndex) {key : Key}
    (hkey : Key.Typed t.schema.keyDomains key) (hfind : t.index.find? Key.order key = .ok none)
    (table : String) (row : Row) : ∃ index, t.index.insertAs table key row = (index, .ok ()) := by
  have hinserted := PrimaryIndex.insert_defined (Key.definedOn_typed t.schema.keyDomains) hkey ht
    row hfind
  rcases hinsert : t.index.insert Key.order key row with ⟨index, result⟩
  rw [hinsert] at hinserted
  obtain rfl : result = .ok () := hinserted
  exact ⟨index, PrimaryIndex.insertAs_ok hinsert⟩

theorem addLoaded_ok (ht : t.TypedIndex) {values : Tuple} (hfit : Fitting t.schema.domains values) :
    ∃ index, t.addLoaded (.tuple values) =
        .ok { t with rows := t.rows ++ [.tuple values], index } ∧
      TypedIndex { t with rows := t.rows ++ [.tuple values], index } := by
  have hkey := (Schema.fitting_keyOf hfit).typed
  obtain ⟨found?, hfind⟩ := ht.exists_find? hkey
  cases found? with
  | some other => exact ⟨t.index, addLoaded_found hfit hfind, ht⟩
  | none =>
    obtain ⟨index, hinsert⟩ := ht.exists_insertAs hkey hfind t.name (.tuple values)
    refine ⟨index, addLoaded_new hfit hfind hinsert, fun e he => ?_⟩
    rcases PrimaryIndex.mem_of_mem_insertAs hinsert he with rfl | he
    · exact hkey
    · exact ht e he

theorem foldlM_addLoaded (ht : t.TypedIndex) {rows : List Row}
    (hrows : ∀ row ∈ rows, row.Fits t.schema.domains) :
    ∃ index, rows.foldlM addLoaded t = .ok { t with rows := t.rows ++ rows, index } := by
  induction rows generalizing t with
  | nil =>
    refine ⟨t.index, ?_⟩
    rw [List.append_nil]
    rfl
  | cons row rows ih =>
    obtain ⟨hrow, hrest⟩ := List.forall_mem_cons.1 hrows
    obtain ⟨values, rfl, hfit⟩ := hrow
    obtain ⟨index, hadded, htyped⟩ := addLoaded_ok ht hfit
    obtain ⟨index', hloaded⟩ := ih htyped hrest
    refine ⟨index', ?_⟩
    rw [List.append_assoc] at hloaded
    rw [List.foldlM_cons, hadded]
    exact hloaded

/-- A table is made from its own snapshot, apart from the session and the index. -/
theorem ofSnapshot_toSnapshot (ht : t.toRelation.Sound) (session : SessionId) :
    ∃ index, Table.ofSnapshot session t.toSnapshot = .ok { t with session, index } := by
  have htyped : (Table.empty session t.name t.schema).TypedIndex :=
    fun _ he => absurd he List.not_mem_nil
  obtain ⟨index, hloaded⟩ := foldlM_addLoaded htyped ht
  refine ⟨index, ?_⟩
  unfold ofSnapshot toSnapshot
  rw [Schema.ofRecord_toRecord]
  exact hloaded

/-! ## Refusals -/

/-- A row of a snapshot counts by its values alone. -/
theorem addLoaded_congr {row other : Row}
    (h : t.schema.validate row = t.schema.validate other) : t.addLoaded row = t.addLoaded other := by
  unfold addLoaded
  rw [h]

theorem TypedIndex.addLoaded (ht : t.TypedIndex) (row : Row) :
    match t.addLoaded row with
    | .ok next => next.TypedIndex
    | .error fault => ∃ cause, fault = .typing cause := by
  cases hvalid : t.schema.validate row with
  | error fault =>
    have hrefused : t.addLoaded row = .error fault := by
      unfold Table.addLoaded
      rw [hvalid]
      rfl
    rw [hrefused]
    exact Schema.error_validate hvalid
  | ok values =>
    have hfit := (Schema.validate_eq_ok.1 hvalid).2
    rw [addLoaded_congr (hvalid.trans (Schema.validate_tuple hfit).symm)]
    obtain ⟨index, hadded, htyped⟩ := addLoaded_ok ht hfit
    rw [hadded]
    exact htyped

theorem TypedIndex.error_foldlM (ht : t.TypedIndex) {rows : List Row} {fault : Fault}
    (h : rows.foldlM Table.addLoaded t = .error fault) : ∃ cause, fault = .typing cause := by
  induction rows generalizing t with
  | nil => cases h
  | cons row rows ih =>
    have hadded := ht.addLoaded row
    rw [List.foldlM_cons] at h
    cases hrow : t.addLoaded row with
    | error first =>
      rw [hrow] at h hadded
      cases h
      exact hadded
    | ok next =>
      rw [hrow] at h hadded
      exact ih hadded h

/-- A snapshot is refused because of its schema or because of a row. -/
theorem error_ofSnapshot {session : SessionId} {s : Snapshot} {fault : Fault}
    (h : Table.ofSnapshot session s = .error fault) :
    (∃ cause, fault = .definition cause) ∨ ∃ cause, fault = .typing cause := by
  unfold ofSnapshot at h
  cases hschema : Schema.ofRecord s.schema with
  | error first =>
    rw [hschema] at h
    cases h
    exact .inl (Schema.error_define hschema)
  | ok schema =>
    rw [hschema] at h
    have htyped : (Table.empty session s.name schema).TypedIndex :=
      fun _ he => absurd he List.not_mem_nil
    exact .inr (htyped.error_foldlM h)

theorem session_ofSnapshot {session : SessionId} {s : Snapshot}
    (h : Table.ofSnapshot session s = .ok t) : t.session = session := by
  refine ofSnapshot_induction (P := fun t => t.session = session) (fun _ => rfl) ?_ h
  intro t u row ht hrow
  obtain ⟨values, index, -, -, rfl, -⟩ := addLoaded_cases hrow
  exact ht

end Table

end KeyedRelations
