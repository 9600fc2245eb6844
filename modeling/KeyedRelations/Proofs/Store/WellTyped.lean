import KeyedRelations.Proofs.Store.History
import KeyedRelations.Proofs.Table.Entries

/-!
# All tables are well typed

Results are made without a look at their rows, and snapshots with rows that no index entry leads to.
Still, whatever is asked of a store, the rows of its tables fit their schemas value by value, and their
indexes lead from keys to rows with these keys.
-/

namespace KeyedRelations

theorem Table.kept_sound : Table.Kept Table.Sound where
  empty := sound_empty
  insert ht row := ht.insert row
  snapshot h := sound_ofSnapshot h
  unary ht h session name := sound_ofRelation session name (ht.unary h)
  binary ht hu h session name := sound_ofRelation session name (ht.binary hu h)

theorem Table.kept_indexed : Table.Kept Table.Indexed where
  empty := indexed_empty
  insert ht row := ht.insert row
  snapshot h := indexed_ofSnapshot h
  unary _ _ session name := indexed_ofRelation session name _
  binary _ _ _ session name := indexed_ofRelation session name _

namespace Store

theorem Reached.wellTyped {store : Store} (hstore : Reached store) {id : TableId} {t : Table}
    (ht : store.tables[id.number]? = some t) : t.WellTyped := by
  have hmem := List.mem_of_getElem? ht
  have hrows := (hstore.forall_tables Table.kept_sound t hmem).rows
  exact ⟨hrows, (hstore.forall_tables Table.kept_indexed t hmem).typedIndex hrows⟩

/-- After any calls, the rows of every table are tuples with an accepted value for each column, and the
entries of its index, which are not more than the rows, are some of the rows under their keys. What an
operation makes next has no entries. -/
theorem wellTyped_runAll (settings : Settings) (files : FileTree) (calls : List Call) :
    let store := runAll calls (initial settings files)
    (∀ t ∈ store.tables,
      (∀ row ∈ t.rows, ∃ values, row = .tuple values ∧ values.length = t.schema.arity ∧
        Fitting t.schema.domains values) ∧
      t.index.items Key.order = .ok t.index.toList ∧
      (∀ e ∈ t.index.toList, e.2 ∈ t.rows ∧ e.1 = t.keyOf e.2) ∧
      t.index.size = t.index.toList.length ∧ t.index.size ≤ t.rows.length) ∧
    ∀ (call : Call) (source : TableId) (context : Option SessionId) (action : Action TableId)
      (id : TableId) (store' : Store),
      call.operation? = some (source, context, action) → action store = .ok id store' →
      ∃ t, store'.tables = store.tables ++ [t] ∧ id.number = store.tables.length ∧
        t.index = .empty := by
  intro store
  have hstore : Reached store := (Reached.initial settings files).runAll calls
  constructor
  · intro t ht
    have hsound := hstore.forall_tables Table.kept_sound t ht
    have hindexed := hstore.forall_tables Table.kept_indexed t ht
    refine ⟨fun row hrow => ?_, t.index.items_eq Key.order, hindexed.entries, hindexed.size_eq,
      hindexed.size_le⟩
    obtain ⟨values, rfl, hfit⟩ := hsound.rows row hrow
    exact ⟨values, rfl, hfit.length_eq.symm.trans Schema.length_domains, hfit⟩
  · intro call source context action id store' hoperation hok
    obtain ⟨-, hmakes⟩ := Call.perform_operation hoperation
    have hresult := hmakes store.tables store rfl
    rw [hok] at hresult
    cases hresult with
    | made ht hr hs => exact ⟨_, rfl, rfl, rfl⟩

/-- A column for each kind of values. -/
def eachKind : Schema where
  columns := [⟨"k", .integer64⟩, ⟨"x", .float64⟩, ⟨"s", .string⟩]
  key := ["k"]
  names_nodup := by decide
  key_ne_nil := by decide
  key_subset := by decide

/-- A table of a snapshot that repeats a key, with one more row. -/
def repeatedKey : List Call :=
  [.newSession ⟨"/", []⟩ [],
    .tableOfSnapshot ⟨0⟩
      ⟨"t", eachKind.toRecord, [.tuple [.int 5, .float .zero, .text "a"],
        .tuple [.int 5, .float .quietNaN, .text ""]]⟩,
    .offer ⟨0⟩ (.insert (.tuple [.int 7, .float .zero, .text "é"]))]

theorem wellTyped_runAll_repeated_key :
    let store := runAll repeatedKey (initial bareSettings ⟨[]⟩)
    (∃ t, store.tables = [t] ∧ t.rows.length = 3 ∧ t.index.size = 2 ∧
      (∀ row ∈ t.rows, ∃ values, row = .tuple values ∧ values.length = 3 ∧
        Fitting [.integer64, .float64, .string] values) ∧
      ∀ e ∈ t.index.toList, e.2 ∈ t.rows ∧ e.1 = t.keyOf e.2) ∧
    ∃ id store' t, applyUnary (.project ["s"]) ⟨0⟩ none store = .ok id store' ∧
      store'.tables[1]? = some t ∧ t.index = .empty := by
  intro store
  obtain ⟨htables, hresults⟩ :=
    wellTyped_runAll bareSettings ⟨[]⟩ repeatedKey
  constructor
  · obtain ⟨t, ht, hrows, hsize, hschema⟩ : ∃ t, store.tables = [t] ∧ t.rows.length = 3 ∧
        t.index.size = 2 ∧ t.schema = eachKind := ⟨_, rfl, rfl, rfl, rfl⟩
    obtain ⟨hfit, -, hentries, -⟩ := htables t (ht ▸ List.mem_cons_self)
    rw [hschema] at hfit
    exact ⟨t, ht, hrows, hsize, hfit, hentries⟩
  · obtain ⟨id, store', hproject⟩ :
        ∃ id store', applyUnary (.project ["s"]) ⟨0⟩ none store = .ok id store' := ⟨_, _, rfl⟩
    obtain ⟨t, htables', -, hindex⟩ :=
      hresults (.unary (.project ["s"]) ⟨0⟩ none) _ _ _ _ _ rfl hproject
    have hone : store.tables.length = 1 := rfl
    refine ⟨id, store', t, hproject, ?_, hindex⟩
    rw [htables', List.getElem?_append_right hone.le, hone]
    rfl

end Store

end KeyedRelations
