import KeyedRelations.Proofs.Table.Entries

/-!
# Tables with an ordered index

Rows of snapshots and of results may be stored without an index entry, so the index of a table need not
hold all of its rows. As long as no row has a `NaN` in its key, what the index holds is in order, and an
insertion is decided by it alone: a row is stored just if it fits and its key is not in the index.
-/

namespace KeyedRelations

namespace PrimaryIndex

variable {index : TableIndex} {accepted : List (Key × Row)}

theorem Represents.represents_toList (hrep : index.Represents accepted) :
    index.Represents index.toList where
  sorted := hrep.sorted
  perm := .refl _
  size_eq := hrep.size_eq.trans hrep.perm.length_eq.symm

theorem represents_empty : (empty : TableIndex).Represents (empty : TableIndex).toList :=
  ⟨List.Pairwise.nil, .nil, rfl⟩

end PrimaryIndex

/-- Whether a row, if it fits the schema, has no `NaN` in its key. -/
def Schema.FreeOfNaN (schema : Schema) (row : Row) : Prop :=
  ∀ values, schema.validate row = .ok values → (schema.keyOf values).hasNaN = false

instance (schema : Schema) (row : Row) : Decidable (schema.FreeOfNaN row) :=
  match h : schema.validate row with
  | .ok values => decidable_of_iff ((schema.keyOf values).hasNaN = false) <| by
    constructor
    · intro hnan others hothers
      cases h.symm.trans hothers
      exact hnan
    · exact fun hfree => hfree values h
  | .error fault => isTrue fun values hvalues => by cases h.symm.trans hvalues

namespace Table

/-- The rows of the index are rows of the table, and in order as long as no row has a `NaN` in its
key. -/
structure Ordered (t : Table) : Prop where
  sound : t.Sound
  indexed : t.Indexed
  represents : t.FreeOfNaN → t.index.Represents t.index.toList

variable {t u : Table}

theorem ordered_empty (session : SessionId) (name : String) (schema : Schema) :
    (Table.empty session name schema).Ordered where
  sound := sound_empty session name schema
  indexed := indexed_empty session name schema
  represents _ := PrimaryIndex.represents_empty

theorem ordered_ofRelation (session : SessionId) (name : String) {r : Relation} (hr : r.Sound) :
    (Table.ofRelation session name r).Ordered where
  sound := sound_ofRelation session name hr
  indexed := indexed_ofRelation session name r
  represents _ := PrimaryIndex.represents_empty

/-- The keys in the index have values of the key domains and no `NaN`. -/
theorem Ordered.entries_mem (ht : t.Ordered) (hfree : t.FreeOfNaN) : ∀ e ∈ t.index.toList,
    e.1 ∈ {key | Key.Typed t.schema.keyDomains key ∧ key.hasNaN = false} := by
  intro e he
  obtain ⟨hrow, hkey⟩ := ht.indexed.entries e he
  constructor
  · exact ht.indexed.typedIndex ht.sound.rows e he
  · rw [hkey]
    exact hfree e.2 hrow

/-- A row is added with its entry. -/
theorem Ordered.represents_stored (ht : t.Ordered) {values : Tuple}
    (hfit : Fitting t.schema.domains values) {index : TableIndex}
    (hinsert : t.index.insertAs t.name (t.schema.keyOf values) (.tuple values) = (index, .ok ()))
    (hfree : FreeOfNaN { t with rows := t.rows ++ [.tuple values], index }) :
    index.Represents index.toList := by
  obtain ⟨hold, hnew⟩ := List.forall_mem_append.1 hfree
  have hnan : (t.schema.keyOf values).hasNaN = false := hnew _ List.mem_cons_self
  have htotal := totalOn_union (Schema.fitting_keyOf hfit).typed hnan
  rcases (ht.represents hold).insertAs (ht.entries_mem hold) htotal t.name (.tuple values) with
    ⟨e, -, -, htaken⟩ | ⟨index', -, hok, hrep⟩
  · cases hinsert.symm.trans htaken
  · cases hinsert.symm.trans hok
    exact hrep.represents_toList

theorem Ordered.insert (ht : t.Ordered) (row : Row) : (t.insert row).1.Ordered := by
  refine ⟨ht.sound.insert row, ht.indexed.insert row, ?_⟩
  rcases t.insert_cases row with
    ⟨fault, heq⟩ | ⟨values, index, fault, -, hinsert, heq⟩ | ⟨values, index, hfit, hinsert, heq⟩
  · rw [heq]
    exact ht.represents
  · rw [heq]
    intro hfree
    obtain ⟨hlist, hsize⟩ := PrimaryIndex.toList_of_insertAs_error hinsert
    have halike : PrimaryIndex.Alike t.index index := ⟨hlist, hsize⟩
    exact (halike.represents (ht.represents hfree)).represents_toList
  · rw [heq]
    exact ht.represents_stored hfit hinsert

theorem Ordered.addLoaded (ht : t.Ordered) {row : Row} (h : t.addLoaded row = .ok u) :
    u.Ordered := by
  refine ⟨ht.sound.addLoaded h, ht.indexed.addLoaded h, ?_⟩
  obtain ⟨values, index, -, hfit, rfl, rfl | hinsert⟩ := addLoaded_cases h
  · intro hfree
    exact ht.represents (List.forall_mem_append.1 hfree).1
  · exact ht.represents_stored hfit hinsert

theorem ordered_ofSnapshot {session : SessionId} {s : Snapshot}
    (h : Table.ofSnapshot session s = .ok t) : t.Ordered :=
  ofSnapshot_induction (ordered_empty session s.name) (fun ht hrow => ht.addLoaded hrow) h

/-! ## Keys that are there -/

/-- Whether the index has an entry under a key. -/
def hasKey (t : Table) (key : Key) : Bool := t.index.toList.any fun e => Key.order.same e.1 key

theorem Ordered.contains_eq (ht : t.Ordered) (hfree : t.FreeOfNaN) {key : Key}
    (htyped : Key.Typed t.schema.keyDomains key) (hnan : key.hasNaN = false) :
    t.index.contains Key.order key = .ok (t.hasKey key) := by
  have htotal := totalOn_union htyped hnan
  have hfind := (ht.represents hfree).find? (ht.entries_mem hfree) htotal
  unfold PrimaryIndex.contains hasKey
  rw [hfind]
  simp [Except.map, List.isSome_find?]

/-! ## Insertions -/

/-- The ways in which the insertion of a row that has words into an ordered table ends. -/
inductive Inserted (t : Table) (row : Row) : Table × Except Fault Tuple → Prop
  | unfit {cause : TypeFault} (invalid : t.schema.validate row = .error (.typing cause)) :
    Inserted t row (t, .error (.typing cause))
  | taken {values : Tuple} (valid : t.schema.validate row = .ok values)
    (present : t.hasKey (t.schema.keyOf values) = true) :
    Inserted t row (t, .error (.keyConflict t.name (t.schema.keyOf values)))
  | stored {values : Tuple} {index : TableIndex} (valid : t.schema.validate row = .ok values)
    (new : t.hasKey (t.schema.keyOf values) = false)
    (entries : index.toList.Perm (t.index.toList ++ [(t.schema.keyOf values, .tuple values)])) :
    Inserted t row ({ t with rows := t.rows ++ [.tuple values], index }, .ok values)

theorem Ordered.inserted (ht : t.Ordered) (hfree : t.FreeOfNaN) {row : Row}
    (hrow : t.schema.FreeOfNaN row) (hworded : row.toValue.Worded) :
    t.Inserted row (t.insert row) := by
  have hexamine := t.examine_worded hworded
  cases hvalid : t.schema.validate row with
  | error fault =>
    obtain ⟨cause, rfl⟩ := Schema.error_validate hvalid
    have heq : t.insert row = (t, .error (.typing cause)) := by
      simp [Table.insert, hexamine, hvalid]
    rw [heq]
    exact .unfit hvalid
  | ok values =>
    have htyped := (Schema.fitting_keyOf (Schema.validate_eq_ok.1 hvalid).2).typed
    have htotal := totalOn_union htyped (hrow values hvalid)
    rcases (ht.represents hfree).insertAs (ht.entries_mem hfree) htotal t.name (.tuple values) with
      ⟨e, he, hsame, hinsert⟩ | ⟨index, hnew, hinsert, hrep⟩
    · have heq : t.insert row = (t, .error (.keyConflict t.name (t.schema.keyOf values))) := by
        simp [Table.insert, hexamine, hvalid, hinsert, Key.conflict_worded t.name htyped.worded]
      rw [heq]
      exact .taken hvalid (List.any_eq_true.2 ⟨e, he, hsame⟩)
    · have heq : t.insert row =
          ({ t with rows := t.rows ++ [.tuple values], index }, .ok values) := by
        simp [Table.insert, hexamine, hvalid, hinsert]
      rw [heq]
      refine .stored hvalid ?_ hrep.perm
      unfold hasKey
      rw [List.any_eq_false]
      intro e he
      simp [hnew e he]

end Table

end KeyedRelations
