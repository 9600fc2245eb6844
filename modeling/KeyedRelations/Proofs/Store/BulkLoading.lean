import KeyedRelations.Proofs.Store.Isolation
import KeyedRelations.Proofs.Table.BulkLoading

/-!
# Bulk loading into a table of the store

Loading rows in bulk into a table, however it was made, is inserting them one after the other. It may be
done in parts, and what the table does not take is in the list of rejected rows. Both ways end at a row
without words, and what stands behind it is neither loaded nor rejected.
-/

namespace KeyedRelations

theorem Table.kept_ordered : Table.Kept Table.Ordered where
  empty := ordered_empty
  insert ht row := ht.insert row
  snapshot h := ordered_ofSnapshot h
  unary ht h session name := ordered_ofRelation session name (ht.sound.unary h)
  binary ht hu h session name := ordered_ofRelation session name (ht.sound.binary hu.sound h)

namespace Store

variable {store : Store} {id : TableId} {t : Table}

theorem tryInsert_run (ht : store.tables[id.number]? = some t) {row : Row}
    (hsettled : Settled [(t.insert row).2]) :
    ∃ trace, tryInsert id row store = .ok (t.insert row).2.isOk
      { store with tables := store.tables.set id.number (t.insert row).1, trace } := by
  obtain ⟨hlt, -⟩ := List.getElem?_eq_some_iff.1 ht
  obtain ⟨trace, hrun⟩ := insert_run ht row
  unfold tryInsert
  rcases hinsert : t.insert row with ⟨u, fault | values⟩
  · rw [hinsert] at hrun hsettled
    have hrejects : fault.rejectsRow = true := hsettled fault List.mem_cons_self
    have hthere : (store.tables.set id.number u)[id.number]? = some u :=
      List.getElem?_set_self hlt
    rw [tryCatch_error (bind_error (discard_error hrun) _), hrejects]
    simp only [Bool.not_true, Bool.false_eq_true, if_false]
    rw [bind_ok (table_ok hthere)]
    exact ⟨_, rfl⟩
  · rw [hinsert] at hrun
    have hdone : (do discard (insert id row); return true : Action Bool) store = .ok true
        { store with tables := store.tables.set id.number u, trace } := bind_ok (discard_ok hrun) _
    exact ⟨trace, tryCatch_ok hdone _⟩

theorem mapM_tryInsert {rows : List Row} (ht : store.tables[id.number]? = some t)
    (hsettled : Settled (t.insertAll rows).2) :
    ∃ trace, rows.mapM (tryInsert id) store = .ok ((t.insertAll rows).2.map (·.isOk))
      { store with tables := store.tables.set id.number (t.insertAll rows).1, trace } := by
  induction rows generalizing store t with
  | nil =>
    simp only [Table.insertAll]
    rw [set_same ht]
    exact ⟨store.trace, rfl⟩
  | cons row rows ih =>
    rw [Table.insertAll_cons] at hsettled ⊢
    rw [← List.singleton_append, settled_append] at hsettled
    obtain ⟨hlt, -⟩ := List.getElem?_eq_some_iff.1 ht
    obtain ⟨trace, hrow⟩ := tryInsert_run ht hsettled.1
    let next : Store := { store with tables := store.tables.set id.number (t.insert row).1, trace }
    have hnext : next.tables[id.number]? = some (t.insert row).1 := List.getElem?_set_self hlt
    obtain ⟨trace', hrows⟩ := ih hnext hsettled.2
    refine ⟨trace', ?_⟩
    rw [List.mapM_cons, bind_ok hrow, bind_ok hrows, List.set_set]
    rfl

/-- A builder extended by some rows and then by more has done what it does in one go. -/
theorem build_twice (store : Store) (id : TableId) (t : Table) (b : Builder) (xs ys : List Row)
    (hsettled : Settled (t.insertAll (xs ++ ys)).2) :
    ∃ first middle m k trace,
      build id { b with table := t } (·.extend xs) store = .ok (first, m) middle ∧
      build id first (·.extend ys) middle =
        .ok (b.loaded (t.insertAll (xs ++ ys)).1 (xs ++ ys) (t.insertAll (xs ++ ys)).2, k)
          { store with tables := store.tables.set id.number (t.insertAll (xs ++ ys)).1, trace } ∧
      m + k = (accepted (t.insertAll (xs ++ ys)).2).length := by
  rw [Table.insertAll_append] at hsettled ⊢
  obtain ⟨hxs, hys⟩ := settled_append.1 hsettled
  let first := b.loaded (t.insertAll xs).1 xs (t.insertAll xs).2
  have hfirst : Builder.extend { b with table := t } xs =
      (first, .ok (accepted (t.insertAll xs).2).length) := Builder.extend_eq { b with table := t } xs hxs
  have hsecond := first.extend_eq ys hys
  rw [b.loaded_loaded _ _ (t.length_insertAll xs)] at hsecond
  obtain ⟨trace, hrun⟩ := build_run id { b with table := t } (·.extend xs) hfirst store
  obtain ⟨trace', hrun'⟩ := build_run id first (·.extend ys) hsecond
    { store with tables := store.tables.set id.number (t.insertAll xs).1, trace }
  rw [List.set_set] at hrun'
  refine ⟨first, _, _, _, trace', hrun, hrun', ?_⟩
  rw [accepted_append, List.length_append]
  rfl

/-- An insertion is not attempted if the row has no words. -/
theorem tryInsert_not_worded (ht : store.tables[id.number]? = some t) {row : Row}
    (hrow : ¬row.toValue.Worded) :
    ∃ trace, tryInsert id row store = .error .integerLength { store with trace } := by
  obtain ⟨trace, hrun⟩ := insert_run ht row
  rw [t.insert_not_worded hrow, set_same ht] at hrun
  refine ⟨trace, ?_⟩
  unfold tryInsert
  rw [tryCatch_error (bind_error (discard_error hrun) _)]
  rfl

theorem mapM_tryInsert_stops (ht : store.tables[id.number]? = some t) {xs : List Row} {row : Row}
    (hsettled : Settled (t.insertAll xs).2) (hrow : ¬row.toValue.Worded) (ys : List Row) :
    ∃ trace, (xs ++ row :: ys).mapM (tryInsert id) store = .error .integerLength
      { store with tables := store.tables.set id.number (t.insertAll xs).1, trace } := by
  obtain ⟨hlt, -⟩ := List.getElem?_eq_some_iff.1 ht
  obtain ⟨trace, hfront⟩ := mapM_tryInsert ht hsettled
  let middle : Store :=
    { store with tables := store.tables.set id.number (t.insertAll xs).1, trace }
  have hmiddle : middle.tables[id.number]? = some (t.insertAll xs).1 := List.getElem?_set_self hlt
  obtain ⟨trace', hstop⟩ := tryInsert_not_worded hmiddle hrow
  refine ⟨trace', ?_⟩
  rw [List.mapM_append, bind_ok hfront, List.mapM_cons]
  exact bind_error (bind_error hstop _) _

/-- Loading rows in bulk into a table of which no key has a `NaN` leaves the table that insertions one
after the other leave. A row is accepted just if it fits and its key is neither in the index nor that of
a row accepted before it; the accepted rows follow those of the table, the others follow the rejected
rows of the builder, each with the fault about it, and the answer counts the accepted ones. Loading in
two parts comes to the same. This is so as long as all rows have words; otherwise it is so of the rows in
front of the first without, and those behind it are lost. -/
theorem extend_inserts_each (hstore : Reached store) (ht : store.tables[id.number]? = some t)
    (hfree : t.FreeOfNaN) (b : Builder) {rows : List Row}
    (hrows : ∀ row ∈ rows, t.schema.FreeOfNaN row) :
    ((∀ row ∈ rows, row.toValue.Worded) →
      ∃ (u : Table) (answers : List (Except Fault Tuple)) (loaded : Builder) (n : Nat),
        (∃ trace, rows.mapM (tryInsert id) store = .ok (answers.map (·.isOk))
          { store with tables := store.tables.set id.number u, trace }) ∧
        (∃ trace, build id { b with table := t } (·.extend rows) store = .ok (loaded, n)
          { store with tables := store.tables.set id.number u, trace }) ∧
        t.Decides rows answers ∧
        u.rows = t.rows ++ (accepted answers).map .tuple ∧
        loaded.rejected = b.rejected ++ refused rows answers ∧
        n = (accepted answers).length ∧ n + (refused rows answers).length = rows.length ∧
        loaded.count = b.count + n ∧
        ∀ xs ys, rows = xs ++ ys → ∃ first middle m k trace,
          build id { b with table := t } (·.extend xs) store = .ok (first, m) middle ∧
          build id first (·.extend ys) middle =
            .ok (loaded, k) { store with tables := store.tables.set id.number u, trace } ∧
          m + k = n) ∧
    ∀ xs row ys, rows = xs ++ row :: ys → (∀ x ∈ xs, x.toValue.Worded) → ¬row.toValue.Worded →
      ∃ (u : Table) (answers : List (Except Fault Tuple)) (loaded : Builder),
        (∃ trace, rows.mapM (tryInsert id) store = .error .integerLength
          { store with tables := store.tables.set id.number u, trace }) ∧
        (∃ trace, build id { b with table := t } (·.extend rows) store = .error .integerLength
          { store with tables := store.tables.set id.number u, trace }) ∧
        Builder.extend { b with table := t } rows = (loaded, .error .integerLength) ∧
        t.Decides xs answers ∧
        u.rows = t.rows ++ (accepted answers).map .tuple ∧ loaded.table = u ∧
        loaded.rejected = b.rejected ++ refused xs answers ∧
        loaded.count = b.count + (accepted answers).length := by
  have hordered := hstore.forall_tables Table.kept_ordered t (List.mem_of_getElem? ht)
  constructor
  · intro hworded
    have hbulk := hordered.bulk_insertAll hfree hrows hworded
    have hextend := Builder.extend_eq { b with table := t } rows hbulk.settled
    refine ⟨(t.insertAll rows).1, (t.insertAll rows).2,
      b.loaded (t.insertAll rows).1 rows (t.insertAll rows).2, _, mapM_tryInsert ht hbulk.settled,
      build_run id _ (·.extend rows) hextend store, hordered.decides_insertAll hfree hrows hworded,
      hbulk.rows_eq, rfl, rfl, length_accepted_add_refused (t.length_insertAll rows), rfl, ?_⟩
    intro xs ys hsplit
    subst hsplit
    exact build_twice store id t b xs ys hbulk.settled
  · rintro xs row ys rfl hworded hrow
    have hfront : ∀ x ∈ xs, t.schema.FreeOfNaN x := (List.forall_mem_append.1 hrows).1
    have hbulk := hordered.bulk_insertAll hfree hfront hworded
    have hextend := Builder.extend_stops { b with table := t } hbulk.settled hrow ys
    exact ⟨(t.insertAll xs).1, (t.insertAll xs).2, _,
      mapM_tryInsert_stops ht hbulk.settled hrow ys,
      build_error id _ (·.extend (xs ++ row :: ys)) hextend store, hextend,
      hordered.decides_insertAll hfree hfront hworded, hbulk.rows_eq, rfl, rfl, rfl⟩

/-- A projection, whose row is not in the index. -/
def projectedKeys : List Call :=
  [.newSession ⟨"/", []⟩ [], .newTable ⟨0⟩ "t" (.schema (keyColumn .integer64)),
    .offer ⟨0⟩ (.insert (.tuple [.int 5])), .unary (.project ["k"]) ⟨0⟩ none]

/-- A key that is stored without an entry, the same once more, what is no number, and a new key. -/
def someRows : List Row :=
  [.tuple [.int 5], .tuple [.int 5], .tuple [.null], .tuple [.int 7]]

theorem extend_inserts_each_projected :
    let store := runAll projectedKeys (initial bareSettings ⟨[]⟩)
    ∃ (t u : Table) (answers : List (Except Fault Tuple)) (loaded : Builder)
      (trace : List Trace.Entry), store.tables[1]? = some t ∧ t.index = .empty ∧
      build ⟨1⟩ (Builder.ofTable t) (·.extend someRows) store = .ok (loaded, 2)
        { store with tables := store.tables.set 1 u, trace } ∧
      t.Decides someRows answers ∧ u.rows = t.rows ++ (accepted answers).map .tuple ∧
      loaded.rejected = refused someRows answers ∧ loaded.rejected.length = 2 := by
  intro store
  have hstore : Reached store := (Reached.initial _ _).runAll projectedKeys
  obtain ⟨t, ht, hrows, hindex, hschema⟩ : ∃ t, store.tables[1]? = some t ∧
      t.rows = [.tuple [.int 5]] ∧ t.index = .empty ∧ t.schema = keyColumn .integer64 :=
    ⟨_, rfl, rfl, rfl, rfl⟩
  have hsecond : store.tables[(⟨1⟩ : TableId).number]? = some t := ht
  have hfree : t.FreeOfNaN := by
    unfold Table.FreeOfNaN Table.keyOf
    rw [hrows, hschema]
    decide
  have hfits : ∀ row ∈ someRows, t.schema.FreeOfNaN row := by
    rw [hschema]
    decide
  have hworded : ∀ row ∈ someRows, row.toValue.Worded := by
    intro row hrow
    rw [Value.worded_iff]
    revert row
    decide
  obtain ⟨u, answers, loaded, n, -, ⟨trace, hbuild⟩, hdecides, hnew, hrejected, hn, hcount, -, -⟩ :=
    (extend_inserts_each hstore hsecond hfree (.ofTable t) hfits).1 hworded
  have htwo : (store.tables[1]?.bind fun t =>
      (answer? (build ⟨1⟩ (Builder.ofTable t) (·.extend someRows)) store).map (·.2)) = some 2 := by
    decide +kernel
  have hbuild' : build ⟨1⟩ (Builder.ofTable t) (·.extend someRows) store = .ok (loaded, n)
      { store with tables := store.tables.set 1 u, trace } := hbuild
  obtain rfl : n = 2 := by
    simpa [ht, answer?, hbuild'] using htwo
  refine ⟨t, u, answers, loaded, trace, ht, hindex, hbuild', hdecides, hnew, hrejected, ?_⟩
  rw [hrejected]
  exact Nat.add_left_cancel hcount

/-- A row that fits an empty table is neither loaded nor rejected behind a number of 4301 digits. -/
theorem extend_long_number :
    let store := runAll (projectedKeys.take 2) (initial bareSettings ⟨[]⟩)
    let long : Row := .tuple [.int (10 ^ Fault.numeralLimit)]
    ∃ (t : Table) (trace : List Trace.Entry), store.tables[0]? = some t ∧ t.rows = [] ∧
      t.index = .empty ∧ t.schema.validate (.tuple [.int 5]) = .ok [.int 5] ∧
      build ⟨0⟩ (Builder.ofTable t) (·.extend [long, .tuple [.int 5]]) store =
        .error .integerLength { store with tables := store.tables.set 0 t, trace } := by
  intro store long
  have hlong : ¬long.toValue.Worded := by
    intro hworded
    rw [Row.toValue, Value.worded_tuple_iff, List.forall_mem_singleton] at hworded
    exact Value.not_worded_power hworded
  obtain ⟨t, ht, hrows, hindex, hschema⟩ : ∃ t, store.tables[0]? = some t ∧ t.rows = [] ∧
      t.index = .empty ∧ t.schema = keyColumn .integer64 := ⟨_, rfl, rfl, rfl, rfl⟩
  have hsettled : Settled (t.insertAll []).2 := fun fault hfault => absurd hfault List.not_mem_nil
  have hextend := (Builder.ofTable t).extend_stops hsettled hlong [.tuple [.int 5]]
  obtain ⟨trace, hbuild⟩ := build_error ⟨0⟩ _ (·.extend [long, .tuple [.int 5]]) hextend store
  refine ⟨t, trace, ht, hrows, hindex, ?_, hbuild⟩
  rw [hschema]
  rfl

end Store

end KeyedRelations
