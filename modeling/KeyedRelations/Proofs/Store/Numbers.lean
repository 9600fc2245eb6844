import KeyedRelations.Proofs.Store.DerivedNames

/-!
# Numbers of results

The counter of a session goes up by one with every table that is derived for the session, and stays
where it is otherwise, unless a number is taken by hand. So the tables of a session are numbered
without gaps, whatever is done in between.
-/

namespace KeyedRelations.Store

/-- The number that a session gives next, which is zero if there is no such session yet. -/
def nextNumber (store : Store) (id : SessionId) : Nat :=
  (store.sessions[id.number]?.map (·.counter)).getD 0

/-- Whether the table of a derivation belongs to a session. -/
def Derivation.isOf (d : Derivation) (store : Store) (id : SessionId) : Bool :=
  store.tables[d.table.number]?.any fun t => t.session = id

/-- All that a run derives for a session, in order. -/
def derivationsOf (id : SessionId) (calls : List Call) (store : Store) : List Derivation :=
  (derivations calls store).filter (·.isOf (runAll calls store) id)

variable {store store' : Store} {id : SessionId} {call : Call} {d : Derivation}

theorem nextNumber_set {other : SessionId} {s s' : Session}
    (hs : store.sessions[other.number]? = some s)
    (hset : store'.sessions = store.sessions.set other.number s') (id : SessionId) :
    store'.nextNumber id = if other = id then s'.counter else store.nextNumber id := by
  unfold nextNumber
  rw [getElem?_sessions_set hs hset]
  split_ifs <;> rfl

theorem Change.nextNumber_eq (h : Change store store') (id : SessionId) :
    store'.nextNumber id = store.nextNumber id := by
  cases h with
  | aside files trace => rfl
  | newSession directory => exact getD_map_newSession (·.counter) _ id
  | newTable ht => rfl
  | @registered tid t s ht hs =>
    rw [nextNumber_set hs rfl]
    split_ifs with hid
    · rw [nextNumber, ← hid, hs]
      rfl
    · rfl
  | offered ht o => rfl

theorem Changed.nextNumber_eq (h : Changed store store') (id : SessionId) :
    store'.nextNumber id = store.nextNumber id :=
  h.induction (P := fun other => other.nextNumber id = store.nextNumber id)
    (fun hchange hother => (hchange.nextNumber_eq id).trans hother) rfl

/-! ## Calls -/

theorem changed_of_derivation?_eq_none (h : call.derivation? store = none)
    (hname : ∀ id base, call ≠ .nextName id base) : Changed store (after (perform call) store) := by
  cases hoperation : call.operation? with
  | none => exact changing_perform hoperation hname store
  | some operation =>
    obtain ⟨source, context, action⟩ := operation
    obtain ⟨hperform, hmakes⟩ := Call.perform_operation hoperation
    have hresult := hmakes store.tables store rfl
    unfold Call.derivation? at h
    rw [hoperation] at h
    dsimp only at h
    rw [hperform, after_discard]
    unfold after
    generalize action store = result at h hresult ⊢
    cases hresult with
    | made ht hr hs => cases h
    | refused => exact changed_aside _ _

/-- A call that derives nothing takes no number, unless it asks for one. -/
theorem nextNumber_perform (h : call.derivation? store = none)
    (hname : ∀ base, call ≠ .nextName id base) :
    (after (perform call) store).nextNumber id = store.nextNumber id := by
  by_cases hother : ∃ other base, call = .nextName other base
  · obtain ⟨other, base, rfl⟩ := hother
    change (after (discard (nextName other base)) store).nextNumber id = _
    rw [after_discard]
    rcases after_nextName other base store with heq | ⟨s, hs, heq⟩
    · rw [heq]
    · rw [heq, nextNumber_set hs rfl, if_neg]
      rintro rfl
      exact hname base rfl
  · push Not at hother
    exact (changed_of_derivation?_eq_none h hother).nextNumber_eq id

/-- A call that derives a table for a session takes its number, and none of another session. -/
theorem made_perform (h : call.derivation? store = some d) :
    ∃ t base, d.Made (after (perform call) store) t base (store.nextNumber t.session) ∧
      ∀ id, (after (perform call) store).nextNumber id =
        if t.session = id then store.nextNumber id + 1 else store.nextNumber id := by
  obtain ⟨t, base, s, hmade, hs, hsessions⟩ := made_of_derivation? h
  have hnumber : store.nextNumber t.session = s.counter := by
    rw [nextNumber, hs]
    rfl
  refine ⟨t, base, hnumber ▸ hmade, fun id => ?_⟩
  rw [nextNumber_set hs hsessions]
  split_ifs with hid
  · rw [← hid, hnumber]
  · rfl

/-! ## Runs -/

theorem Derivation.Made.isOf_eq {t : Table} {base : String} {number : Nat}
    (h : d.Made store t base number) (id : SessionId) : d.isOf store id = decide (t.session = id) := by
  rw [isOf, h.table]
  rfl

/-- What a run derives for a session takes the numbers one after the other, from the one at which the
session stands. -/
theorem made_derivationsOf {calls : List Call} (hname : ∀ base, .nextName id base ∉ calls) {k : Nat}
    (hd : (derivationsOf id calls store)[k]? = some d) :
    ∃ t base, d.Made (runAll calls store) t base (store.nextNumber id + k) ∧ t.session = id := by
  induction calls generalizing store k with
  | nil => simp [derivationsOf, derivations] at hd
  | cons call calls ih =>
    have hrest : ∀ base, .nextName id base ∉ calls :=
      fun base hmem => hname base (List.mem_cons_of_mem call hmem)
    have hsplit : derivationsOf id (call :: calls) store =
        (call.derivation? store).toList.filter (·.isOf (runAll (call :: calls) store) id) ++
          derivationsOf id calls (after (perform call) store) := List.filter_append ..
    rw [hsplit] at hd
    cases hcall : call.derivation? store with
    | none =>
      have hkept := nextNumber_perform hcall fun base heq => hname base (heq ▸ List.mem_cons_self)
      rw [hcall] at hd
      obtain ⟨t, base, hmade, hsession⟩ := ih hrest hd
      exact ⟨t, base, hkept ▸ hmade, hsession⟩
    | some first =>
      obtain ⟨t, base, hfirst, hnext⟩ := made_perform hcall
      obtain ⟨t', hlast, hsession⟩ := hfirst.extends (extends_runAll calls _)
      have hlast' : first.Made (runAll (call :: calls) store) t' base
          (store.nextNumber t.session) := hlast
      have hisOf := hlast'.isOf_eq id
      have hid := hnext id
      rw [hcall, Option.toList_some, List.filter_cons, hisOf, List.filter_nil] at hd
      by_cases hown : t'.session = id
      · rw [← hsession, if_pos hown] at hid
        simp only [hown, decide_true, if_true] at hd
        cases k with
        | zero =>
          obtain rfl : first = d := by simpa using hd
          exact ⟨t', base, by rwa [← hsession, hown] at hlast', hown⟩
        | succ k =>
          obtain ⟨u, other, hmade, hu⟩ := ih hrest (by simpa using hd)
          refine ⟨u, other, ?_, hu⟩
          rw [hid] at hmade
          have hsum : store.nextNumber id + 1 + k = store.nextNumber id + (k + 1) := by omega
          exact hsum ▸ hmade
      · rw [← hsession, if_neg hown] at hid
        simp only [hown, decide_false, Bool.false_eq_true, if_false] at hd
        obtain ⟨u, other, hmade, hu⟩ := ih hrest hd
        exact ⟨u, other, hid ▸ hmade, hu⟩

end KeyedRelations.Store
