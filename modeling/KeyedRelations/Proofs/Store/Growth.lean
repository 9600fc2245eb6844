import KeyedRelations.Proofs.Store.History

/-!
# What stays of tables and sessions

Whatever is asked of a store, its tables keep their numbers, their names and their sessions, and the
counters of its sessions never fall.
-/

namespace KeyedRelations

/-- Whether every table and every session of a store is there in another store, with its name and its
session, and with no lower counter. -/
structure Store.Extends (store store' : Store) : Prop where
  table : ∀ (i : Nat) (t : Table), store.tables[i]? = some t →
    ∃ t', store'.tables[i]? = some t' ∧ t'.name = t.name ∧ t'.session = t.session
  session : ∀ (i : Nat) (s : Session), store.sessions[i]? = some s →
    ∃ s', store'.sessions[i]? = some s' ∧ s.counter ≤ s'.counter

theorem Table.name_offer (t : Table) (o : Offer) :
    (t.offer o).name = t.name ∧ (t.offer o).session = t.session := by
  have hinsert (u : Table) (row : Row) (hu : u.name = t.name ∧ u.session = t.session) :
      (u.insert row).1.name = t.name ∧ (u.insert row).1.session = t.session := by
    unfold Table.insert
    split
    · exact hu
    · split <;> exact hu
  exact offer_induction hinsert ⟨rfl, rfl⟩ o

namespace Store

variable {store store' store'' : Store}

theorem extends_of_eq (htables : store'.tables = store.tables)
    (hsessions : store'.sessions = store.sessions) : Extends store store' where
  table _ t ht := ⟨t, htables ▸ ht, rfl, rfl⟩
  session _ s hs := ⟨s, hsessions ▸ hs, le_rfl⟩

theorem Extends.trans (h : Extends store store') (h' : Extends store' store'') :
    Extends store store'' where
  table i t ht := by
    obtain ⟨t', ht', hname, hsession⟩ := h.table i t ht
    obtain ⟨t'', ht'', hname', hsession'⟩ := h'.table i t' ht'
    exact ⟨t'', ht'', hname'.trans hname, hsession'.trans hsession⟩
  session i s hs := by
    obtain ⟨s', hs', hcounter⟩ := h.session i s hs
    obtain ⟨s'', hs'', hcounter'⟩ := h'.session i s' hs'
    exact ⟨s'', hs'', hcounter.trans hcounter'⟩

theorem extends_append (store : Store) (tables : List Table) :
    Extends store { store with tables := store.tables ++ tables } where
  table i t ht := by
    obtain ⟨hlt, -⟩ := List.getElem?_eq_some_iff.1 ht
    exact ⟨t, (List.getElem?_append_left hlt).trans ht, rfl, rfl⟩
  session i s hs := ⟨s, hs, le_rfl⟩

theorem extends_setSession {i : Nat} {s s' : Session} (hs : store.sessions[i]? = some s)
    (hcounter : s.counter ≤ s'.counter) :
    Extends store { store with sessions := store.sessions.set i s' } where
  table j t ht := ⟨t, ht, rfl, rfl⟩
  session j u hu := by
    obtain ⟨hlt, -⟩ := List.getElem?_eq_some_iff.1 hu
    by_cases hij : i = j
    · subst hij
      obtain rfl := Option.some.inj (hs.symm.trans hu)
      exact ⟨s', List.getElem?_set_self hlt, hcounter⟩
    · exact ⟨u, (List.getElem?_set_ne hij).trans hu, le_rfl⟩

theorem extends_nextNumber {i : Nat} {s : Session} (hs : store.sessions[i]? = some s) :
    Extends store
      { store with sessions := store.sessions.set i { s with counter := s.counter + 1 } } :=
  extends_setSession hs (Nat.le_succ _)

theorem extends_setTable {id : TableId} {t t' : Table}
    (ht : store.tables[id.number]? = some t) (hname : t'.name = t.name ∧ t'.session = t.session) :
    Extends store { store with tables := store.tables.set id.number t' } where
  table j u hu := by
    obtain ⟨hlt, -⟩ := List.getElem?_eq_some_iff.1 hu
    by_cases hij : id.number = j
    · subst hij
      obtain rfl := Option.some.inj (ht.symm.trans hu)
      exact ⟨t', List.getElem?_set_self hlt, hname⟩
    · exact ⟨u, (List.getElem?_set_ne hij).trans hu, rfl, rfl⟩
  session j s hs := ⟨s, hs, le_rfl⟩

theorem extends_newSession (store : Store) (s : Session) :
    Extends store { store with sessions := store.sessions ++ [s] } where
  table _ t ht := ⟨t, ht, rfl, rfl⟩
  session i u hu := by
    obtain ⟨hlt, -⟩ := List.getElem?_eq_some_iff.1 hu
    exact ⟨u, (List.getElem?_append_left hlt).trans hu, le_rfl⟩

/-- The sessions after one of them has changed. -/
theorem getElem?_sessions_set {other : SessionId} {s s' : Session}
    (hs : store.sessions[other.number]? = some s)
    (hset : store'.sessions = store.sessions.set other.number s') (id : SessionId) :
    store'.sessions[id.number]? = if other = id then some s' else store.sessions[id.number]? := by
  obtain ⟨hlt, -⟩ := List.getElem?_eq_some_iff.1 hs
  rw [hset]
  split_ifs with hid
  · rw [← hid, List.getElem?_set_self hlt]
  · rw [List.getElem?_set_ne]
    intro hnumber
    cases other
    cases id
    exact hid (congrArg SessionId.mk hnumber)

/-- A new session starts where a missing one stands. -/
theorem getD_map_newSession {β : Type} (f : Session → β) (s : Session) (id : SessionId) :
    ((store.sessions ++ [s])[id.number]?.map f).getD (f s) =
      (store.sessions[id.number]?.map f).getD (f s) := by
  rcases lt_trichotomy id.number store.sessions.length with hlt | heq | hgt
  · rw [List.getElem?_append_left hlt]
  · rw [heq, List.getElem?_concat_length, List.getElem?_eq_none le_rfl]
    rfl
  · rw [List.getElem?_eq_none hgt.le, List.getElem?_eq_none (by simpa using hgt)]

/-! ## Calls -/

theorem Change.extends (h : Change store store') : Extends store store' := by
  cases h with
  | aside files trace => exact extends_of_eq rfl rfl
  | newSession directory => exact extends_newSession store _
  | newTable ht => exact extends_append store _
  | registered ht hs => exact extends_setSession hs le_rfl
  | offered ht o => exact extends_setTable ht (Table.name_offer _ o)

theorem Changed.extends (h : Changed store store') : Extends store store' :=
  h.induction (fun hchange hstore => hstore.trans hchange.extends) (extends_of_eq rfl rfl)

theorem Step.extends (h : Step store store') : Extends store store' := by
  cases h with
  | changed h => exact h.extends
  | numbered hs => exact extends_nextNumber hs
  | made h =>
    cases h with
    | made ht hr hs =>
      exact ((extends_nextNumber hs).trans (extends_append _ _)).trans (extends_of_eq rfl rfl)

theorem extends_perform (call : Call) (store : Store) :
    Extends store (after (perform call) store) :=
  (step_perform call store).extends

theorem extends_runAll (calls : List Call) (store : Store) : Extends store (runAll calls store) := by
  induction calls generalizing store with
  | nil => exact extends_of_eq rfl rfl
  | cons call calls ih => exact (extends_perform call store).trans (ih _)

end Store

end KeyedRelations
