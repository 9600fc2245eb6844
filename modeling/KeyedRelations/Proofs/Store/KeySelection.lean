import KeyedRelations.Proofs.Relation.Checks
import KeyedRelations.Proofs.Store.Offers
import KeyedRelations.Proofs.Store.Results
import KeyedRelations.Proofs.Table.Reloading

/-!
# Selecting by a key

A key may be written in several ways, which all mean the same values. A table that was filled by
offers answers from its index, and the answer is what a scan of its rows for the key would give: as
long as no stored key has a `NaN` in it, the index holds just the rows, and at most one of them has the
key that is asked for.
-/

namespace KeyedRelations

/-! ## Ways to write a key -/

/-- The values that stand for a key: the key itself, a tuple or a list of its values, and its only
value. -/
inductive Key.Spelling : Key → Value → Prop
  | key (key : Key) : Spelling key (.key key)
  | tuple (key : Key) : Spelling key (.tuple key)
  | list (key : Key) : Spelling key (.list key)
  | bare (v : Value) : Spelling [v] v

namespace Schema

variable {schema : Schema} {key : Key}

theorem firstUnfitKey?_of_fitting {domains : List Domain} (hfit : Fitting domains key)
    (position : Nat) : firstUnfitKey? position domains key = none := by
  induction hfit generalizing position with
  | nil => rfl
  | cons haccepts _ ih =>
    rw [firstUnfitKey?, if_pos haccepts]
    exact ih (position + 1)

theorem coerceKey_key (hfit : Fitting schema.keyDomains key) :
    schema.coerceKey (.key key) = .ok key := by
  have hlength : key.length = schema.keyDomains.length := hfit.length_eq.symm
  simp [coerceKey, hlength, firstUnfitKey?_of_fitting hfit]

theorem eq_of_coerceKey_key {key' : Key} (h : schema.coerceKey (.key key') = .ok key) :
    key' = key := by
  unfold coerceKey at h
  dsimp only at h
  split_ifs at h
  split at h
  · cases h
  · exact Except.ok.inj h

/-- Every value is a way to write some key. -/
theorem exists_spelling (schema : Schema) (k : Value) :
    ∃ key, Key.Spelling key k ∧ schema.coerceKey k = schema.coerceKey (.key key) := by
  cases k with
  | key values => exact ⟨values, .key values, rfl⟩
  | tuple values => exact ⟨values, .tuple values, rfl⟩
  | list values => exact ⟨values, .list values, rfl⟩
  | _ => exact ⟨_, .bare _, rfl⟩

/-- A value is accepted just if it is a way to write the key and the key fits the key columns. -/
theorem coerceKey_eq_ok {k : Value} :
    schema.coerceKey k = .ok key ↔ Key.Spelling key k ∧ Fitting schema.keyDomains key := by
  constructor
  · intro h
    obtain ⟨key', hspelling, heq⟩ := schema.exists_spelling k
    obtain rfl := eq_of_coerceKey_key (heq.symm.trans h)
    exact ⟨hspelling, fitting_of_coerceKey h⟩
  · rintro ⟨hspelling, hfit⟩
    cases hspelling with
    | key => exact coerceKey_key hfit
    | tuple => exact coerceKey_key hfit
    | list => exact coerceKey_key hfit
    | bare =>
      cases k with
      -- No column accepts a sequence as a single value.
      | key | tuple | list =>
        generalize schema.keyDomains = domains at hfit
        cases hfit with
        | @cons d _ _ _ haccepts _ => cases d <;> cases haccepts
      | _ => exact coerceKey_key hfit

end Schema

/-! ## The index against the rows -/

section Lists

variable {α : Type} {p : α → Bool} {l : List α}

theorem length_filter_le_one (hpair : l.Pairwise fun a b => p a = true → p b = false) :
    (l.filter p).length ≤ 1 := by
  have hkept := hpair.filter p
  have hall : ∀ a ∈ l.filter p, p a = true := fun a ha => (List.mem_filter.1 ha).2
  generalize l.filter p = kept at hkept hall
  cases kept with
  | nil => exact Nat.zero_le 1
  | cons a rest =>
    cases rest with
    | nil => exact Nat.le_refl 1
    | cons b rest =>
      obtain ⟨hnone, -⟩ := List.pairwise_cons.1 hkept
      obtain ⟨ha, hrest⟩ := List.forall_mem_cons.1 hall
      have hb := hnone b List.mem_cons_self ha
      exact absurd (hb.symm.trans (hrest b List.mem_cons_self)) (by decide)

theorem toList_find?_eq_filter (hone : (l.filter p).length ≤ 1) :
    (l.find? p).toList = l.filter p := by
  rw [← List.head?_filter]
  generalize l.filter p = kept at hone
  cases kept with
  | nil => rfl
  | cons a rest =>
    obtain rfl : rest = [] := by simpa using hone
    rfl

end Lists

namespace Table.InStep

variable {t : Table} (ht : t.InStep) (hfree : t.FreeOfNaN) {key : Key}

include ht hfree

/-- A search finds the row with the key, also where the key asked for has a `NaN` in it. -/
theorem find?_typed (hkey : Key.Typed t.schema.keyDomains key) :
    t.index.find? Key.order key =
      .ok (t.rows.find? fun row => Key.order.same (t.keyOf row) key) := by
  have hrep := ht.represents hfree
  have hentries := ht.entries_mem hfree
  have htyped : t.TypedIndex := fun e he => (hentries e (hrep.perm.mem_iff.1 he)).1
  obtain ⟨found?, hfind⟩ := htyped.exists_find? hkey
  rw [hfind, hrep.eq_of_find? hentries hfind, List.find?_map, Option.map_map]
  exact congrArg Except.ok Option.map_id'

/-- No key, not even one that is not stored, is the key of two rows. -/
theorem length_filter_same_le_one (key : Key) :
    (t.rows.filter fun row => Key.order.same (t.keyOf row) key).length ≤ 1 := by
  have hkeys : ∀ row ∈ t.rows,
      t.keyOf row ∈ {key | Key.Typed t.schema.keyDomains key ∧ key.hasNaN = false} :=
    fun row hrow => ht.entries_mem hfree _ (List.mem_map_of_mem hrow)
  apply length_filter_le_one
  refine (ht.unique hfree).imp_of_mem fun {a b} ha hb hdifferent hsame => ?_
  cases hsame' : Key.order.same (t.keyOf b) key with
  | false => rfl
  | true =>
    have hplace := (Key.parts_line _ key).place_eq (hkeys a ha) (hkeys b hb) hsame hsame'
    have hboth := ((Key.along_line _).same_iff (hkeys a ha) (hkeys b hb)).2 hplace
    exact absurd (hdifferent.symm.trans hboth) (by decide)

theorem selectKey (hkey : Key.Typed t.schema.keyDomains key) :
    t.selectKey key =
      .ok ⟨t.schema, t.rows.filter fun row => Key.order.same (t.keyOf row) key⟩ := by
  have hrows := toList_find?_eq_filter (ht.length_filter_same_le_one hfree key)
  simp only [Table.selectKey, ht.find?_typed hfree hkey, Except.mapError, bind, Except.bind, hrows]
  rfl

end Table.InStep

namespace Store

variable {store : Store} {id : TableId} {context : Option SessionId} {t : Table} {s : Session}

/-- What an operation leaves that succeeds. -/
theorem applyUnary_ok (ht : store.tables[id.number]? = some t)
    (hs : store.sessions[(context.getD t.session).number]? = some s) {op : UnaryOperation}
    {line : String} (hline : op.line t = .ok line) {r : Relation} (hr : op.result t = .ok r) :
    ∃ trace, applyUnary op id context store = .ok ⟨store.tables.length⟩ { store with
      tables := store.tables ++
        [Table.ofRelation (context.getD t.session) (t.name ++ Text.decimal s.counter) r]
      sessions := store.sessions.set (context.getD t.session).number
        { s with counter := s.counter + 1 }
      trace } := by
  have hrun : applyUnary op id context store = derive id context r
      { store with trace := ⟨.debug, .algebra, line⟩ :: store.trace } := by
    unfold applyUnary
    rw [bind_ok (table_ok ht), hline, hr]
    rfl
  exact ⟨_, hrun.trans (derive_ok (by exact ht) (by exact hs) r)⟩

/-- Two values that are accepted as one key are the same to a selection. -/
theorem applyUnary_selectKey_congr (ht : store.tables[id.number]? = some t) {k k' : Value}
    (h : t.schema.coerceKey k = t.schema.coerceKey k') :
    applyUnary (.selectKey k) id context store = applyUnary (.selectKey k') id context store := by
  unfold applyUnary
  rw [bind_ok (table_ok ht), bind_ok (table_ok ht)]
  simp only [UnaryOperation.line, UnaryOperation.result, h]

/-- From a table that was filled by offers, of which some may have been refused, and that has no `NaN`
in its key columns, any key that is accepted selects just the rows that have it, of which there is at
most one. The result has the schema of the table, and does not depend on how the key is written. -/
theorem selectKey_offers_eq_filter {start : SessionId} {name : String} {schema : Schema}
    {offers : List Offer} (hfilled : offers.foldl Table.offer (Table.empty start name schema) = t)
    (hfree : t.FreeOfNaN) (ht : store.tables[id.number]? = some t)
    (hs : store.sessions[(context.getD t.session).number]? = some s) {k : Value} {key : Key}
    (hk : t.schema.coerceKey k = .ok key) :
    (t.rows.filter fun row => Key.order.same (t.keyOf row) key).length ≤ 1 ∧
    ∃ selected store' u, applyUnary (.selectKey k) id context store = .ok selected store' ∧
      store'.tables[selected.number]? = some u ∧ u.schema = t.schema ∧
      u.rows = (t.rows.filter fun row => Key.order.same (t.keyOf row) key) ∧
      ∀ k', Key.Spelling key k' →
        applyUnary (.selectKey k') id context store = .ok selected store' := by
  have hstep : t.InStep := by
    rw [← hfilled]
    exact (inStep_offers (Table.inStep_empty start name schema) offers).1
  have hfit := (Schema.coerceKey_eq_ok.1 hk).2
  have hresult : (UnaryOperation.selectKey k).result t = t.selectKey key := by
    simp only [UnaryOperation.result, hk, bind, Except.bind]
  rw [hstep.selectKey hfree hfit.typed] at hresult
  obtain ⟨line, hline⟩ : ∃ line, (UnaryOperation.selectKey k).line t = .ok line :=
    ⟨_, by simp only [UnaryOperation.line, hk, bind, Except.bind]; rfl⟩
  obtain ⟨trace, hrun⟩ := applyUnary_ok ht hs hline hresult
  refine ⟨hstep.length_filter_same_le_one hfree key, _, _, _, hrun, List.getElem?_concat_length,
    rfl, rfl, fun k' hspelling => ?_⟩
  have hk' : t.schema.coerceKey k' = .ok key := Schema.coerceKey_eq_ok.2 ⟨hspelling, hfit⟩
  rw [← hrun]
  exact applyUnary_selectKey_congr ht (hk'.trans hk.symm)

/-- A row is found behind one that is refused, under its number alone or in a list. -/
theorem selectKey_offers_eq_filter_refused_rows :
    let offers : List Offer := [.insert (.tuple [.text "b", .int 5]),
      .insertOrRaise (.tuple [.text "a", .int 3]), .insert (.tuple [.text "c", .int 5]),
      .insert (.tuple [.text "d"])]
    let store := offerAll ⟨0⟩ offers (withTable keyLast)
    ∃ t, store.tables[0]? = some t ∧
      t.rows = [.tuple [.text "b", .int 5], .tuple [.text "a", .int 3]] ∧ t.FreeOfNaN ∧
      t.schema.coerceKey (.int 3) = .ok [.int 3] ∧
      ∃ selected store' u, applyUnary (.selectKey (.int 3)) ⟨0⟩ none store = .ok selected store' ∧
        store'.tables[selected.number]? = some u ∧ u.schema = keyLast ∧
        u.rows = [.tuple [.text "a", .int 3]] ∧
        applyUnary (.selectKey (.list [.int 3])) ⟨0⟩ none store = .ok selected store' := by
  intro offers store
  have ht : store.tables[(⟨0⟩ : TableId).number]? =
      some (offers.foldl Table.offer (Table.empty ⟨0⟩ "t" keyLast)) := table_offerAll rfl offers
  generalize hfilled : offers.foldl Table.offer (Table.empty ⟨0⟩ "t" keyLast) = t at ht
  have hschema : t.schema = keyLast := hfilled ▸ rfl
  have hrows : t.rows = [.tuple [.text "b", .int 5], .tuple [.text "a", .int 3]] := hfilled ▸ rfl
  have hfree : t.FreeOfNaN := by
    unfold Table.FreeOfNaN Table.keyOf
    rw [hrows, hschema]
    decide
  have hk : t.schema.coerceKey (.int 3) = .ok [.int 3] := by
    rw [hschema]
    rfl
  have hs : store.sessions[((none : Option SessionId).getD t.session).number]? =
      some ⟨⟨"/", []⟩, 0, []⟩ := hfilled ▸ rfl
  obtain ⟨-, selected, store', u, hrun, hu, hsame, hselected, hspellings⟩ :=
    selectKey_offers_eq_filter hfilled hfree ht hs hk
  refine ⟨t, ht, hrows, hfree, hk, selected, store', u, hrun, hu, hsame.trans hschema, ?_,
    hspellings _ (.list [.int 3])⟩
  rw [hselected, hrows]
  unfold Table.keyOf
  rw [hschema]
  rfl

end Store

end KeyedRelations
