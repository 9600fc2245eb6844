import KeyedRelations.Proofs.Store.Actions
import KeyedRelations.Proofs.Table.Keys

/-!
# Offering rows to a table of the store

Every way to offer rows, and any sequence of offers, acts on one table only. So what the offers do
to a new table decides which promises of its key they keep.
-/

namespace KeyedRelations.Store

/-- Offers rows to a table. A builder works on the table as it stands. -/
def offer (id : TableId) : Offer → Action Unit
  | .insert row => discard (tryInsert id row)
  | .insertOrRaise row => discard (insert id row)
  | .append builder row => do
    discard (build id { builder with table := ← table id } (·.append row))
  | .extend builder rows => do
    discard (build id { builder with table := ← table id } (·.extend rows))

/-- The store after offers one after the other, of which some may fail. -/
def offerAll (id : TableId) (offers : List Offer) (store : Store) : Store :=
  offers.foldl (fun store o => after (offer id o) store) store

variable {store : Store} {id : TableId} {t : Table}

theorem after_offer (h : store.tables[id.number]? = some t) (o : Offer) :
    ∃ trace, after (offer id o) store =
      { store with tables := store.tables.set id.number (t.offer o), trace } := by
  cases o with
  | insert row =>
    unfold offer
    rw [after_discard]
    exact after_tryInsert h row
  | insertOrRaise row =>
    unfold offer
    rw [after_discard]
    exact after_insert h row
  | append builder row =>
    unfold offer
    rw [after_bind (table_ok h), after_discard]
    exact after_build id _ _ store
  | extend builder rows =>
    unfold offer
    rw [after_bind (table_ok h), after_discard]
    exact after_build id _ _ store

theorem table_offerAll (h : store.tables[id.number]? = some t) (offers : List Offer) :
    (offerAll id offers store).tables[id.number]? = some (offers.foldl Table.offer t) := by
  induction offers generalizing store t with
  | nil => exact h
  | cons o offers ih =>
    apply ih
    obtain ⟨trace, hoffer⟩ := after_offer h o
    dsimp only
    rw [hoffer]
    obtain ⟨hlt, -⟩ := List.getElem?_eq_some_iff.1 h
    exact List.getElem?_set_self hlt

theorem inStep_offers (ht : t.InStep) (offers : List Offer) :
    (offers.foldl Table.offer t).InStep ∧ (offers.foldl Table.offer t).schema = t.schema := by
  induction offers generalizing t with
  | nil => exact ⟨ht, rfl⟩
  | cons o offers ih =>
    obtain ⟨hstep, hschema⟩ := ht.offer o
    obtain ⟨hrest, hschemaRest⟩ := ih hstep
    exact ⟨hrest, hschemaRest.trans hschema⟩

/-- A column that is the key. -/
def keyColumn (d : Domain) : Schema where
  columns := [⟨"k", d⟩]
  key := ["k"]
  names_nodup := by simp
  key_ne_nil := by simp
  key_subset := by simp

/-- A store with a new table. -/
def withTable (schema : Schema) : Store where
  settings := bareSettings
  tables := [Table.empty ⟨0⟩ "t" schema]
  sessions := [⟨⟨"/", []⟩, 0, []⟩]
  files := ⟨[]⟩
  trace := []

/-- However rows are offered to a new table, its index has as many entries as the table has rows;
and as long as no stored key has a `NaN` in it, keys are unique and every row is found under its
key. All offers keep these promises just if no column of the key holds doubles. -/
theorem keyed_offerAll_iff {session : SessionId} {name : String} {schema : Schema}
    (hnew : store.tables[id.number]? = some (Table.empty session name schema)) :
    (∀ offers, ∃ t, (offerAll id offers store).tables[id.number]? = some t ∧ t.schema = schema ∧
      t.index.size = t.rows.length ∧ (t.FreeOfNaN → t.Keyed)) ∧
    ((∀ offers t, (offerAll id offers store).tables[id.number]? = some t → t.Keyed) ↔
      ∀ d ∈ schema.keyDomains, d ≠ .float64 ∧ d ≠ .float32) := by
  have hempty := Table.inStep_empty session name schema
  refine ⟨fun offers => ?_, ?_, ?_⟩
  · obtain ⟨ht, hschema⟩ := inStep_offers hempty offers
    exact ⟨_, table_offerAll hnew offers, hschema, ht.size_eq, ht.keyed⟩
  · intro hkeyed d hd
    by_contra hfloat
    have hexists : ∃ d ∈ schema.keyDomains, d = .float64 ∨ d = .float32 := ⟨d, hd, by tauto⟩
    obtain ⟨first, second, hbroken⟩ := Table.exists_not_keyed session name hexists
    refine hbroken (hkeyed [.insertOrRaise first, .insertOrRaise second] _ ?_)
    exact table_offerAll hnew _
  · intro hdomains offers t ht
    obtain ⟨hstep, hschema⟩ := inStep_offers hempty offers
    rw [table_offerAll hnew offers] at ht
    obtain rfl := Option.some.inj ht
    refine hstep.keyed fun row hrow => ?_
    refine Key.hasNaN_eq_false (Schema.fitting_keyOf (hstep.fitting row hrow)) ?_
    rw [hschema]
    exact hdomains

theorem keyed_offerAll_whole_numbers :
    (withTable (keyColumn .integer64)).tables[0]? =
      some (Table.empty ⟨0⟩ "t" (keyColumn .integer64)) ∧
    let store := offerAll ⟨0⟩ [.insert (.tuple [.int 5]), .extend
      (.ofTable (Table.empty ⟨0⟩ "t" (keyColumn .integer64)))
      [.tuple [.int 3], .tuple [.int 5], .tuple [.null]]] (withTable (keyColumn .integer64))
    store.tables.map (·.rows) = [[.tuple [.int 5], .tuple [.int 3]]] ∧
      ∀ t, store.tables[0]? = some t → t.Keyed := by
  have hnew : (withTable (keyColumn .integer64)).tables[(⟨0⟩ : TableId).number]? =
      some (Table.empty ⟨0⟩ "t" (keyColumn .integer64)) := rfl
  have hkeyed := (keyed_offerAll_iff hnew).2.2 (by decide)
  exact ⟨hnew, rfl, hkeyed _⟩

/-- Behind `NaN` the key 5.0 is not found, and a second row is stored under it. -/
theorem not_keyed_behind_nan :
    let row (x : Double) : Row := .tuple [.float x]
    let five : Double := ⟨0x4014000000000000⟩
    let store := offerAll ⟨0⟩ [.insert (row .quietNaN), .insert (row five), .insert (row five)]
      (withTable (keyColumn .float64))
    store.tables.map (·.rows.length) = [3] ∧
      store.tables.map (·.index.contains Key.order [.float five]) = [.ok false] ∧
        ∀ t, store.tables[0]? = some t → ¬t.Keyed := by
  intro row five store
  refine ⟨by decide +kernel, by decide +kernel, fun t ht hkeyed => ?_⟩
  have hnew : (withTable (keyColumn .float64)).tables[(⟨0⟩ : TableId).number]? =
      some (Table.empty ⟨0⟩ "t" (keyColumn .float64)) := rfl
  obtain rfl := Option.some.inj ((table_offerAll hnew _).symm.trans ht)
  exact absurd hkeyed.unique (by decide +kernel)

end KeyedRelations.Store
