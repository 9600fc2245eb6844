import KeyedRelations.Proofs.Table.Loading

/-!
# The index of a table

Every entry of the index of a table leads from the key of a row to this row. Rows of a snapshot whose
keys have come before and rows of results have no entries, so the index may be smaller than the table,
but never larger.
-/

namespace KeyedRelations.Table

/-- The entries of the index are rows of the table under their keys. -/
structure Indexed (t : Table) : Prop where
  entries : ∀ e ∈ t.index.toList, e.2 ∈ t.rows ∧ e.1 = t.keyOf e.2
  size_eq : t.index.size = t.index.toList.length
  size_le : t.index.size ≤ t.rows.length

variable {t u : Table}

theorem indexed_empty (session : SessionId) (name : String) (schema : Schema) :
    (Table.empty session name schema).Indexed where
  entries _ he := absurd he List.not_mem_nil
  size_eq := rfl
  size_le := Nat.zero_le _

theorem indexed_ofRelation (session : SessionId) (name : String) (r : Relation) :
    (Table.ofRelation session name r).Indexed where
  entries _ he := absurd he List.not_mem_nil
  size_eq := rfl
  size_le := Nat.zero_le _

/-- A row is stored without an entry. -/
theorem Indexed.unindexed (ht : t.Indexed) (row : Row) :
    Indexed { t with rows := t.rows ++ [row] } where
  entries e he := (ht.entries e he).imp_left (List.mem_append_left _)
  size_eq := ht.size_eq
  size_le := ht.size_le.trans (by simp)

/-- A row is stored with its entry. -/
theorem Indexed.stored (ht : t.Indexed) {values : Tuple} {index : TableIndex}
    (h : t.index.insertAs t.name (t.schema.keyOf values) (.tuple values) = (index, .ok ())) :
    Indexed { t with rows := t.rows ++ [.tuple values], index } where
  entries e he := by
    rcases PrimaryIndex.mem_of_mem_insertAs h he with rfl | he
    · exact ⟨List.mem_append_right _ List.mem_cons_self, rfl⟩
    · exact (ht.entries e he).imp_left (List.mem_append_left _)
  size_eq := by
    have hsize := PrimaryIndex.size_of_insertAs_ok h
    have hlength := PrimaryIndex.length_of_insertAs_ok h
    rw [hsize, hlength, ht.size_eq]
  size_le := by
    have hsize := PrimaryIndex.size_of_insertAs_ok h
    simpa [hsize] using ht.size_le

/-- The row is refused, though nodes of the index may have been split. -/
theorem Indexed.refused (ht : t.Indexed) {key : Key} {row : Row} {index : TableIndex} {fault : Fault}
    (h : t.index.insertAs t.name key row = (index, .error fault)) : Indexed { t with index } := by
  obtain ⟨hlist, hsize⟩ := PrimaryIndex.toList_of_insertAs_error h
  refine ⟨fun e he => ht.entries e (hlist ▸ he), ?_, hsize.trans_le ht.size_le⟩
  exact hsize.trans (ht.size_eq.trans (congrArg List.length hlist.symm))

theorem Indexed.insert (ht : t.Indexed) (row : Row) : (t.insert row).1.Indexed := by
  rcases t.insert_cases row with
    ⟨fault, heq⟩ | ⟨values, index, fault, -, hinsert, heq⟩ | ⟨values, index, -, hinsert, heq⟩
  · rw [heq]
    exact ht
  · rw [heq]
    exact ht.refused hinsert
  · rw [heq]
    exact ht.stored hinsert

theorem Indexed.addLoaded (ht : t.Indexed) {row : Row} (h : t.addLoaded row = .ok u) :
    u.Indexed := by
  obtain ⟨values, index, -, -, rfl, rfl | hinsert⟩ := addLoaded_cases h
  · exact ht.unindexed _
  · exact ht.stored hinsert

theorem indexed_ofSnapshot {session : SessionId} {s : Snapshot}
    (h : Table.ofSnapshot session s = .ok t) : t.Indexed :=
  ofSnapshot_induction (indexed_empty session s.name) (fun ht hrow => ht.addLoaded hrow) h

/-! ## Keys in the index -/

theorem Indexed.typedIndex (ht : t.Indexed) (hrows : t.toRelation.Sound) : t.TypedIndex := by
  intro e he
  obtain ⟨hrow, hkey⟩ := ht.entries e he
  obtain ⟨values, heq, hfit⟩ := hrows e.2 hrow
  rw [hkey, heq]
  exact (Schema.fitting_keyOf hfit).typed

/-- If keys can be compared, an index that refuses a row stays as it is. -/
theorem TypedIndex.eq_of_insertAs_error (ht : t.TypedIndex) {key : Key}
    (hkey : Key.Typed t.schema.keyDomains key) {row : Row} {index : TableIndex} {fault : Fault}
    (h : t.index.insertAs t.name key row = (index, .error fault)) : index = t.index := by
  obtain ⟨found?, hfind⟩ := ht.exists_find? hkey
  cases found? with
  | some other =>
    rw [PrimaryIndex.insertAs_found hfind] at h
    exact (Prod.mk.inj h).1.symm
  | none =>
    obtain ⟨index', hinsert⟩ := ht.exists_insertAs hkey hfind t.name row
    rw [hinsert] at h
    cases (Prod.mk.inj h).2

/-- A row that is refused leaves the table as it is. -/
theorem TypedIndex.eq_of_insert_error (ht : t.TypedIndex) {row : Row} {fault : Fault}
    (h : t.insert row = (u, .error fault)) : u = t := by
  rcases t.insert_cases row with
    ⟨cause, heq⟩ | ⟨values, index, cause, hfit, hinsert, heq⟩ | ⟨values, index, -, -, heq⟩
  · rw [heq] at h
    exact (Prod.mk.inj h).1.symm
  · rw [heq, ht.eq_of_insertAs_error (Schema.fitting_keyOf hfit).typed hinsert] at h
    exact (Prod.mk.inj h).1.symm
  · rw [heq] at h
    cases (Prod.mk.inj h).2

end KeyedRelations.Table
