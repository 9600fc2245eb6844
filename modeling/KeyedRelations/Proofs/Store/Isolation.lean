import KeyedRelations.Proofs.Store.Numbers
import KeyedRelations.Proofs.Store.WellTyped

/-!
# What is left alone

Operations only read: they make a table and take a number for it, or fail and leave no trace but the
one that is written. Rows go into one table and into no other, and a row that is refused goes nowhere.
-/

namespace KeyedRelations.Store

variable {store store' : Store} {id : TableId} {t : Table}

/-- What is left of a store by an operation on a table for the session of this table. -/
def OnlyReads (store : Store) (source : TableId) : EStateM.Result Fault Store TableId → Prop
  | .ok id store' => id.number = store.tables.length ∧ store'.files = store.files ∧
    ∃ (t u : Table) (s : Session), store.tables[source.number]? = some t ∧
      store.sessions[t.session.number]? = some s ∧ store'.tables = store.tables ++ [u] ∧
      u.session = t.session ∧ u.name = t.name ++ Text.decimal s.counter ∧
      store'.sessions = store.sessions.set t.session.number { s with counter := s.counter + 1 }
  | .error _ store' => store'.files = store.files ∧ store'.tables = store.tables ∧
    store'.sessions = store.sessions

theorem Result.onlyReads {source : TableId} {result : EStateM.Result Fault Store TableId}
    (h : Result source none store result) : OnlyReads store source result := by
  cases h with
  | refused => exact ⟨rfl, rfl, rfl⟩
  | made ht hr hs => exact ⟨rfl, rfl, _, _, _, ht, hs, rfl, rfl, rfl, rfl⟩

/-! ## Rows -/

/-- Rows that are offered to a table leave all others alone. -/
theorem tables_after_offer (store : Store) (id : TableId) (o : Offer) {i : Nat}
    (hi : i ≠ id.number) : (after (offer id o) store).tables[i]? = store.tables[i]? := by
  cases ht : store.tables[id.number]? with
  | none => rw [offer_absent ht]
  | some t =>
    obtain ⟨trace, hoffer⟩ := after_offer ht o
    rw [hoffer]
    exact List.getElem?_set_ne (Ne.symm hi)

theorem sessions_after_offer (store : Store) (id : TableId) (o : Offer) :
    (after (offer id o) store).sessions = store.sessions := by
  cases ht : store.tables[id.number]? with
  | none => rw [offer_absent ht]
  | some t =>
    obtain ⟨trace, hoffer⟩ := after_offer ht o
    rw [hoffer]

theorem set_same (ht : store.tables[id.number]? = some t) :
    store.tables.set id.number t = store.tables := by
  obtain ⟨hlt, rfl⟩ := List.getElem?_eq_some_iff.1 ht
  exact List.set_getElem_self hlt

/-- The answer to an insertion is the one of the table. -/
theorem insert_run (ht : store.tables[id.number]? = some t) (row : Row) :
    ∃ trace, insert id row store = outcome (t.insert row).2
      { store with tables := store.tables.set id.number (t.insert row).1, trace } := by
  obtain ⟨trace, hreport⟩ := reportInsertion_run t.name row store
  unfold insert
  rw [bind_ok (table_ok ht), bind_ok hreport]
  rcases t.insert row with ⟨u, result⟩
  exact ⟨trace, rfl⟩

theorem tables_insert_error (hstore : Reached store) {row : Row} {fault : Fault}
    (h : insert id row store = .error fault store') :
    store'.tables = store.tables ∧ store'.sessions = store.sessions := by
  cases ht : store.tables[id.number]? with
  | none =>
    obtain ⟨-, rfl⟩ := EStateM.Result.error.inj ((insert_absent ht row).symm.trans h)
    exact ⟨rfl, rfl⟩
  | some t =>
    obtain ⟨trace, hrun⟩ := insert_run ht row
    rw [hrun] at h
    rcases hinsert : t.insert row with ⟨u, cause | values⟩
    · obtain rfl := (hstore.wellTyped ht).index.eq_of_insert_error hinsert
      rw [hinsert] at h
      obtain ⟨-, rfl⟩ := EStateM.Result.error.inj h
      exact ⟨set_same ht, rfl⟩
    · rw [hinsert] at h
      cases h

theorem tables_tryInsert_false (hstore : Reached store) {row : Row}
    (h : tryInsert id row store = .ok false store') :
    store'.tables = store.tables ∧ store'.sessions = store.sessions := by
  cases hinsert : insert id row store with
  | ok values next =>
    simp only [tryInsert, tryCatch, tryCatchThe, MonadExceptOf.tryCatch, EStateM.tryCatch, bind,
      EStateM.bind, discard, Functor.discard, Functor.mapConst, Function.comp, EStateM.map,
      hinsert] at h
    cases h
  | error fault next =>
    obtain ⟨trace, htry⟩ := exists_after_tryInsert id row store
    have hnext : after (insert id row) store = next := by
      unfold after
      rw [hinsert]
    rw [after_ok h, hnext] at htry
    have hkept := tables_insert_error hstore hinsert
    rw [htry]
    exact hkept

theorem Builder.insert_of_append {b b' : Builder} {row : Row} (h : b.append row = (b', .ok false)) :
    ∃ fault, b.table.insert row = (b'.table, .error fault) := by
  unfold Builder.append at h
  rcases hinsert : b.table.insert row with ⟨u, fault | values⟩
  · rw [hinsert] at h
    dsimp only at h
    split_ifs at h
    · obtain ⟨rfl, -⟩ := Prod.mk.inj h
      exact ⟨fault, rfl⟩
    · cases (Prod.mk.inj h).2
  · rw [hinsert] at h
    cases (Prod.mk.inj h).2

theorem tables_append_false (hstore : Reached store) (ht : store.tables[id.number]? = some t)
    {builder builder' : Builder} {row : Row}
    (h : build id { builder with table := t } (·.append row) store = .ok (builder', false) store') :
    store'.tables = store.tables ∧ store'.sessions = store.sessions := by
  obtain ⟨trace, hbuild⟩ := after_build id { builder with table := t } (·.append row) store
  have happend := build_answer h
  obtain ⟨fault, hinsert⟩ := Builder.insert_of_append happend
  have hkept := (hstore.wellTyped ht).index.eq_of_insert_error hinsert
  rw [after_ok h, happend] at hbuild
  rw [hbuild]
  dsimp only
  rw [hkept]
  exact ⟨set_same ht, rfl⟩

/-! ## Runs -/

/-- After any calls, an operation without a session of its own leaves all tables as they are. If it
succeeds, it takes one number of the session of its first table, and no other session changes; if it
fails, none does. Rows that are offered to a table leave all other tables alone, and a row that is
refused leaves all of them. So whatever is done in between, the tables that are derived for a session
are numbered from zero on one after the other. -/
theorem operations_only_read (settings : Settings) (files : FileTree) (calls : List Call) :
    let start := initial settings files
    let store := runAll calls start
    (∀ (call : Call) (source : TableId) (action : Action TableId),
      call.operation? = some (source, none, action) → OnlyReads store source (action store)) ∧
    (∀ (id : TableId) (o : Offer),
      (∀ i, i ≠ id.number → (after (offer id o) store).tables[i]? = store.tables[i]?) ∧
      (after (offer id o) store).sessions = store.sessions) ∧
    (∀ (id : TableId) (row : Row) (fault : Fault) (store' : Store),
      insert id row store = .error fault store' →
      store'.tables = store.tables ∧ store'.sessions = store.sessions) ∧
    (∀ (id : TableId) (row : Row) (store' : Store), tryInsert id row store = .ok false store' →
      store'.tables = store.tables ∧ store'.sessions = store.sessions) ∧
    (∀ (id : TableId) (t : Table) (builder builder' : Builder) (row : Row) (store' : Store),
      store.tables[id.number]? = some t →
      build id { builder with table := t } (·.append row) store = .ok (builder', false) store' →
      store'.tables = store.tables ∧ store'.sessions = store.sessions) ∧
    ∀ id : SessionId, (∀ base, .nextName id base ∉ calls) →
      ∀ (k : Nat) (d : Derivation), (derivationsOf id calls start)[k]? = some d →
        ∃ t base, d.Made store t base k ∧ t.session = id := by
  intro start store
  have hstore : Reached store := (Reached.initial settings files).runAll calls
  refine ⟨?_, ?_, ?_, ?_, ?_, ?_⟩
  · intro call source action hoperation
    obtain ⟨-, hmakes⟩ := Call.perform_operation hoperation
    exact (hmakes store.tables store rfl).onlyReads
  · intro id o
    exact ⟨fun i hi => tables_after_offer store id o hi, sessions_after_offer store id o⟩
  · intro id row fault store' h
    exact tables_insert_error hstore h
  · intro id row store' h
    exact tables_tryInsert_false hstore h
  · intro id t builder builder' row store' ht h
    exact tables_append_false hstore ht h
  · intro id hname k d hd
    obtain ⟨t, base, hmade, hsession⟩ := made_derivationsOf hname hd
    have hfirst : start.nextNumber id = 0 := rfl
    rw [hfirst, Nat.zero_add] at hmade
    exact ⟨t, base, hmade, hsession⟩

/-- Operations of two sessions, with failures, insertions, saving and loading in between. -/
def interleaved : List Call :=
  [.newSession ⟨"/", []⟩ [], .newSession ⟨"/", []⟩ [],
    .newTable ⟨0⟩ "t" (.schema (keyColumn .integer64)),
    .newTable ⟨1⟩ "u" (.schema (keyColumn .integer64)), .offer ⟨0⟩ (.insert (.tuple [.int 5])),
    .unary (.project ["k"]) ⟨0⟩ none, .unary (.project ["x"]) ⟨0⟩ none,
    .binary (.naturalJoin false) ⟨1⟩ ⟨0⟩ none, .nextName ⟨1⟩ "u", .saveTable ⟨0⟩ ⟨0⟩,
    .load ⟨1⟩ "t", .offer ⟨0⟩ (.insertOrRaise (.tuple [.int 5])),
    .binary (.naturalJoin false) ⟨0⟩ ⟨0⟩ none]

theorem operations_only_read_interleaved :
    let start := initial bareSettings ⟨[]⟩
    ∃ store, store = runAll interleaved start ∧
      OnlyReads store ⟨0⟩ (applyBinary (.naturalJoin true) ⟨0⟩ ⟨1⟩ none store) ∧
      (∃ fault store', insert ⟨0⟩ (.tuple [.int 5]) store = .error fault store' ∧
        store'.tables = store.tables) ∧
      (∃ store', tryInsert ⟨0⟩ (.tuple [.null]) store = .ok false store' ∧
        store'.tables = store.tables) ∧
      (∃ t builder store', store.tables[0]? = some t ∧
        build ⟨0⟩ { Builder.ofTable t with table := t } (·.append (.tuple [])) store =
          .ok (builder, false) store' ∧ store'.tables = store.tables) ∧
      ∃ d t, (derivationsOf ⟨0⟩ interleaved start)[1]? = some d ∧
        store.tables[d.table.number]? = some t ∧ t.name = "t1" ∧ t.session = ⟨0⟩ := by
  have hall := operations_only_read bareSettings ⟨[]⟩ interleaved
  dsimp only at hall ⊢
  obtain ⟨store, hstore⟩ : ∃ store, store = runAll interleaved
    (initial bareSettings ⟨[]⟩) := ⟨_, rfl⟩
  rw [← hstore] at hall
  obtain ⟨hreads, -, hinsert, htry, hbuild, hnumbers⟩ := hall
  refine ⟨store, hstore, hreads (.binary (.naturalJoin true) ⟨0⟩ ⟨1⟩ none) _ _ rfl, ?_, ?_, ?_, ?_⟩
  · have hrefused : (answer? (insert ⟨0⟩ (.tuple [.int 5])) store).isNone = true := by
      rw [hstore]
      decide +kernel
    obtain ⟨fault, store', hfailed⟩ :=
      exists_of_answer?_eq_none (Option.isNone_iff_eq_none.1 hrefused)
    exact ⟨fault, store', hfailed, (hinsert _ _ _ _ hfailed).1⟩
  · have hrefused : answer? (tryInsert ⟨0⟩ (.tuple [.null])) store = some false := by
      rw [hstore]
      decide +kernel
    obtain ⟨store', hfailed⟩ := exists_of_answer? hrefused
    exact ⟨store', hfailed, (htry _ _ _ hfailed).1⟩
  · have hrefused : (store.tables[0]?.bind fun t =>
        (answer? (build ⟨0⟩ { Builder.ofTable t with table := t } (·.append (.tuple []))) store).map
          (·.2)) = some false := by
      rw [hstore]
      decide +kernel
    obtain ⟨t, ht, hbuilt⟩ := Option.bind_eq_some_iff.1 hrefused
    obtain ⟨⟨builder, accepted⟩, hanswer, rfl⟩ := Option.map_eq_some_iff.1 hbuilt
    obtain ⟨store', hfailed⟩ := exists_of_answer? hanswer
    exact ⟨t, builder, store', ht, hfailed, (hbuild _ _ _ _ _ _ ht hfailed).1⟩
  · have hsecond : (derivationsOf ⟨0⟩ interleaved (initial bareSettings ⟨[]⟩))[1]? =
        some ⟨⟨0⟩, ⟨5⟩⟩ := by
      decide +kernel
    have hname : ∀ base, Call.nextName ⟨0⟩ base ∉ interleaved := by
      intro base
      simp [interleaved]
    obtain ⟨t, base, hmade, hsession⟩ := hnumbers ⟨0⟩ hname 1 _ hsecond
    obtain ⟨u, hu, hbase⟩ := hmade.source
    have hsource : store.tables[0]?.map (·.name) = some "t" := by
      rw [hstore]
      decide +kernel
    have hu' : store.tables[0]? = some u := hu
    obtain rfl : base = "t" := by simpa [hu', hbase] using hsource
    have hone : "t" ++ Text.decimal 1 = "t1" := by decide +kernel
    exact ⟨_, t, hsecond, hmade.table, hmade.name.trans hone, hsession⟩

end KeyedRelations.Store
