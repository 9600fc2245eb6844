import KeyedRelations.Proofs.Index.Defined
import KeyedRelations.Proofs.Relation.Rows
import KeyedRelations.Proofs.Table.Keys

/-!
# The rows of a table

All rows of a table are tuples that fit its schema, and so are the rows in its index, whether the
table is filled row by row, made from a snapshot, or the result of an operation.
-/

namespace KeyedRelations

theorem PrimaryIndex.mem_of_mem_insertAs {index index' : TableIndex} {table : String} {key : Key}
    {row : Row} {result : Except Fault Unit} (h : index.insertAs table key row = (index', result))
    {e : Key × Row} (he : e ∈ index'.toList) : e = (key, row) ∨ e ∈ index.toList := by
  have hindex : index' = (index.insert Key.order key row).1 := (congrArg Prod.fst h).symm
  have hadded := index.added_insert Key.order key row
  rw [← hindex] at hadded
  generalize index'.toList = es at hadded he
  generalize (index.insert Key.order key row).2.isOk = success at hadded
  generalize index.toList = es' at hadded ⊢
  cases hadded with
  | failed _ => exact .inr he
  | placed left right =>
    rcases List.mem_append.1 he with he | he
    · exact .inr (List.mem_append_left right he)
    · rcases List.mem_cons.1 he with rfl | he
      · exact .inl rfl
      · exact .inr (List.mem_append_right left he)

namespace Table

/-- The rows of a table and those in its index fit the schema. -/
structure Sound (t : Table) : Prop where
  rows : t.toRelation.Sound
  entries : ∀ e ∈ t.index.toList, e.2.Fits t.schema.domains

variable {t u : Table}

theorem sound_empty (session : SessionId) (name : String) (schema : Schema) :
    (Table.empty session name schema).Sound where
  rows _ hrow := absurd hrow List.not_mem_nil
  entries _ he := absurd he List.not_mem_nil

theorem sound_ofRelation (session : SessionId) (name : String) {r : Relation} (hr : r.Sound) :
    (Table.ofRelation session name r).Sound where
  rows := hr
  entries _ he := absurd he List.not_mem_nil

/-! ## Adding rows -/

theorem Sound.index {index : TableIndex} (ht : t.Sound) {key : Key} {row : Row}
    {result : Except Fault Unit} (hrow : row.Fits t.schema.domains)
    (h : t.index.insertAs t.name key row = (index, result)) :
    ∀ e ∈ index.toList, e.2.Fits t.schema.domains := by
  intro e he
  rcases PrimaryIndex.mem_of_mem_insertAs h he with rfl | he
  · exact hrow
  · exact ht.entries e he

theorem Sound.append (ht : t.Sound) {row : Row} (hrow : row.Fits t.schema.domains) :
    ∀ other ∈ t.rows ++ [row], other.Fits t.schema.domains := by
  intro other hother
  rcases List.mem_append.1 hother with hother | hother
  · exact ht.rows other hother
  · rw [List.mem_singleton.1 hother]
    exact hrow

theorem Sound.insert (ht : t.Sound) (row : Row) : (t.insert row).1.Sound := by
  rcases t.insert_cases row with
    ⟨fault, heq⟩ | ⟨values, index, fault, hfit, hinsert, heq⟩ | ⟨values, index, hfit, hinsert, heq⟩
  · rw [heq]
    exact ht
  · rw [heq]
    exact ⟨ht.rows, ht.index ⟨values, rfl, hfit⟩ hinsert⟩
  · rw [heq]
    exact ⟨ht.append ⟨values, rfl, hfit⟩, ht.index ⟨values, rfl, hfit⟩ hinsert⟩

/-- The ways in which a row of a snapshot is added. -/
theorem addLoaded_cases {row : Row} (h : t.addLoaded row = .ok u) :
    ∃ values index, row.values = values ∧ Fitting t.schema.domains values ∧
      u = { t with rows := t.rows ++ [.tuple values], index } ∧
      (index = t.index ∨
        t.index.insertAs t.name (t.schema.keyOf values) (.tuple values) = (index, .ok ())) := by
  obtain ⟨values, hvalid, h⟩ := exists_of_bind_eq_ok h
  obtain ⟨hvalues, hfit⟩ := Schema.validate_eq_ok.1 hvalid
  obtain ⟨found?, -, h⟩ := exists_of_bind_eq_ok h
  dsimp only at h
  cases found? with
  | some other =>
    cases h
    exact ⟨values, t.index, hvalues, hfit, rfl, .inl rfl⟩
  | none =>
    rcases hinsert : t.index.insertAs t.name (t.schema.keyOf values) (.tuple values) with
      ⟨index, fault | _⟩
    · rw [hinsert] at h
      cases h
    · rw [hinsert] at h
      cases h
      exact ⟨values, index, hvalues, hfit, rfl, .inr hinsert⟩

theorem Sound.addLoaded (ht : t.Sound) {row : Row} (h : t.addLoaded row = .ok u) : u.Sound := by
  obtain ⟨values, index, -, hfit, rfl, rfl | hinsert⟩ := addLoaded_cases h
  · exact ⟨ht.append ⟨values, rfl, hfit⟩, ht.entries⟩
  · exact ⟨ht.append ⟨values, rfl, hfit⟩, ht.index ⟨values, rfl, hfit⟩ hinsert⟩

/-- What holds of tables without rows, and of a table with one more row of a snapshot if it held before,
holds of the table of a snapshot. -/
theorem ofSnapshot_induction {P : Table → Prop} {session : SessionId} {s : Snapshot}
    (hempty : ∀ schema, P (Table.empty session s.name schema))
    (hadded : ∀ {t u : Table} {row : Row}, P t → t.addLoaded row = .ok u → P u)
    (h : Table.ofSnapshot session s = .ok t) : P t := by
  obtain ⟨schema, -, h⟩ := exists_of_bind_eq_ok h
  have hstart := hempty schema
  generalize Table.empty session s.name schema = start at h hstart
  generalize s.rows = rows at h
  induction rows generalizing start with
  | nil =>
    cases h
    exact hstart
  | cons row rows ih =>
    obtain ⟨next, hnext, h⟩ := exists_of_bind_eq_ok h
    exact ih next (hadded hstart hnext) h

theorem sound_ofSnapshot {session : SessionId} {s : Snapshot}
    (h : Table.ofSnapshot session s = .ok t) : t.Sound :=
  ofSnapshot_induction (sound_empty session s.name) (fun ht hrow => ht.addLoaded hrow) h

/-! ## Results -/

theorem Sound.selectKey (ht : t.Sound) {key : Key} {r : Relation} (h : t.selectKey key = .ok r) :
    r.Sound := by
  obtain ⟨row?, hfind, h⟩ := exists_of_bind_eq_ok h
  cases h
  intro row hrow
  cases row? with
  | none => cases hrow
  | some found =>
    obtain rfl : row = found := List.mem_singleton.1 hrow
    have hsearch : t.index.root.find? Key.order key = .ok (some row) := by
      change (t.index.root.find? Key.order key).mapError _ = _ at hfind
      cases hroot : t.index.root.find? Key.order key with
      | error cause => simp [hroot, Except.mapError] at hfind
      | ok row? => simpa [hroot, Except.mapError] using hfind
    obtain ⟨e, he, rfl⟩ := Index.Node.mem_of_find? hsearch
    exact ht.entries e he

theorem Sound.unary (ht : t.Sound) {op : UnaryOperation} {r : Relation}
    (h : op.result t = .ok r) : r.Sound := by
  cases op with
  | project names => exact ht.rows.project h
  | selectWhere p => exact ht.rows.selectWhere h
  | selectCondition condition => exact ht.rows.selectCondition h
  | selectKey key =>
    obtain ⟨key, -, h⟩ := exists_of_bind_eq_ok h
    exact ht.selectKey h

theorem Sound.binary (ht : t.Sound) (hu : u.Sound) {op : BinaryOperation} {r : Relation}
    (h : op.result t u = .ok r) : r.Sound := by
  cases op with
  | union => exact ht.rows.union hu.rows h
  | minus => exact ht.rows.minus h
  | equiJoin left right => exact ht.rows.equiJoin hu.rows h
  | thetaJoin condition => exact ht.rows.thetaJoin hu.rows h
  | naturalJoin projectRight => exact ht.rows.naturalJoin hu.rows h
  | indexJoin => cases h
  | hashJoin => cases h

end Table

end KeyedRelations
