import KeyedRelations.Store.Tables
import Mathlib

/-!
# Running actions

What an action leaves in the store, whether it succeeds or fails, and the actions by which rows are
offered to a table: they put one table in its place and report.
-/

namespace KeyedRelations.Store

/-- Settings without variables, with room for a hundred levels. -/
def bareSettings : Settings := ⟨⟨"/", []⟩, none, none, ⟨100, 100, by decide⟩⟩

/-- The store after an action, whether it succeeds or fails. -/
def after {α : Type} (action : Action α) (store : Store) : Store :=
  match action store with
  | .ok _ store => store
  | .error _ store => store

/-- What an action answers, if it succeeds. -/
def answer? {α : Type} (action : Action α) (store : Store) : Option α :=
  match action store with
  | .ok a _ => some a
  | .error _ _ => none

variable {store store' : Store} {id : TableId} {session : SessionId} {t : Table} {s : Session}
  {α β : Type}

theorem after_ok {action : Action α} {a : α} (h : action store = .ok a store') :
    after action store = store' := by
  unfold after
  rw [h]

theorem after_error {action : Action α} {fault : Fault} (h : action store = .error fault store') :
    after action store = store' := by
  unfold after
  rw [h]

theorem answer?_ok {action : Action α} {a : α} (h : action store = .ok a store') :
    answer? action store = some a := by
  unfold answer?
  rw [h]

theorem answer?_error {action : Action α} {fault : Fault} (h : action store = .error fault store') :
    answer? action store = none := by
  unfold answer?
  rw [h]

theorem exists_of_answer? {action : Action α} {a : α} (h : answer? action store = some a) :
    ∃ store', action store = .ok a store' := by
  unfold answer? at h
  cases hrun : action store with
  | ok answer store' =>
    rw [hrun] at h
    cases h
    exact ⟨store', rfl⟩
  | error fault store' =>
    rw [hrun] at h
    cases h

theorem exists_of_answer?_eq_none {action : Action α} (h : answer? action store = none) :
    ∃ fault store', action store = .error fault store' := by
  unfold answer? at h
  cases hrun : action store with
  | ok answer store' =>
    rw [hrun] at h
    cases h
  | error fault store' => exact ⟨fault, store', rfl⟩

theorem bind_ok {action : Action α} {a : α} (h : action store = .ok a store')
    (next : α → Action β) : (action >>= next) store = next a store' := by
  simp only [bind, EStateM.bind, h]

theorem bind_error {action : Action α} {fault : Fault} (h : action store = .error fault store')
    (next : α → Action β) : (action >>= next) store = .error fault store' := by
  simp only [bind, EStateM.bind, h]

theorem after_bind {action : Action α} {a : α} (h : action store = .ok a store')
    (next : α → Action β) : after (action >>= next) store = after (next a) store' := by
  unfold after
  rw [bind_ok h]

theorem after_discard (action : Action α) : after (discard action) store = after action store := by
  simp only [after, discard, Functor.discard, Functor.mapConst, Function.comp, EStateM.map]
  cases action store <;> rfl

theorem discard_ok {action : Action α} {a : α} (h : action store = .ok a store') :
    discard action store = .ok ⟨⟩ store' := by
  simp only [discard, Functor.discard, Functor.mapConst, Function.comp, EStateM.map, h]

theorem discard_error {action : Action α} {fault : Fault} (h : action store = .error fault store') :
    discard action store = .error fault store' := by
  simp only [discard, Functor.discard, Functor.mapConst, Function.comp, EStateM.map, h]

theorem tryCatch_ok {action : Action α} {a : α} (h : action store = .ok a store')
    (handle : Fault → Action α) : tryCatch action handle store = .ok a store' := by
  simp only [tryCatch, tryCatchThe, MonadExceptOf.tryCatch, EStateM.tryCatch, h]

theorem tryCatch_error {action : Action α} {fault : Fault} (h : action store = .error fault store')
    (handle : Fault → Action α) : tryCatch action handle store = handle fault store' := by
  simp only [tryCatch, tryCatchThe, MonadExceptOf.tryCatch, EStateM.tryCatch, h]
  rfl

theorem table_ok (h : store.tables[id.number]? = some t) : table id store = .ok t store := by
  simp only [table, bind, EStateM.bind, get, getThe, MonadStateOf.get, EStateM.get, h]
  rfl

theorem session_ok (h : store.sessions[session.number]? = some s) :
    Store.session session store = .ok s store := by
  simp only [Store.session, bind, EStateM.bind, get, getThe, MonadStateOf.get, EStateM.get, h]
  rfl

theorem table_absent {id : TableId} (h : store.tables[id.number]? = none) :
    table id store = .error (.absent id.number) store := by
  simp only [table, bind, EStateM.bind, get, getThe, MonadStateOf.get, EStateM.get, h]
  rfl

theorem insert_absent {id : TableId} (h : store.tables[id.number]? = none) (row : Row) :
    insert id row store = .error (.absent id.number) store :=
  bind_error (table_absent h) _

theorem session_absent (h : store.sessions[session.number]? = none) :
    Store.session session store = .error (.absent session.number) store := by
  simp only [Store.session, bind, EStateM.bind, get, getThe, MonadStateOf.get, EStateM.get, h]
  rfl

theorem after_bind_table {id : TableId} (h : store.tables[id.number]? = none)
    (next : Table → Action α) : after (table id >>= next) store = store := by
  simp only [after, bind_error (table_absent h)]

theorem nextName_ok (h : store.sessions[session.number]? = some s) (base : String) :
    nextName session base store = .ok (base ++ Text.decimal s.counter) { store with
      sessions := store.sessions.set session.number { s with counter := s.counter + 1 } } :=
  bind_ok (session_ok h) _

theorem nextName_absent (h : store.sessions[session.number]? = none) (base : String) :
    nextName session base store = .error (.absent session.number) store :=
  bind_error (session_absent h) _

theorem register_ok (ht : store.tables[id.number]? = some t) (hown : t.session = session)
    (hs : store.sessions[session.number]? = some s) :
    ∃ trace, register session id store = .ok ()
      { store with
        sessions := store.sessions.set session.number
          { s with registry := s.registry.enter t.name id }
        trace } := by
  unfold register
  rw [bind_ok (table_ok ht)]
  dsimp only
  rw [if_neg (not_not_intro hown), bind_ok (session_ok hs)]
  exact ⟨_, rfl⟩

/-- A registration that fails leaves the store as it was. -/
theorem register_cases (session : SessionId) (id : TableId) (store : Store) :
    (∃ t s trace, store.tables[id.number]? = some t ∧ t.session = session ∧
      store.sessions[session.number]? = some s ∧ register session id store = .ok ()
        { store with
          sessions := store.sessions.set session.number
            { s with registry := s.registry.enter t.name id }
          trace }) ∨
    ∃ fault, register session id store = .error fault store := by
  cases ht : store.tables[id.number]? with
  | none => exact .inr ⟨_, bind_error (table_absent ht) _⟩
  | some t =>
    by_cases hown : t.session = session
    · cases hs : store.sessions[session.number]? with
      | none =>
        right
        unfold register
        rw [bind_ok (table_ok ht)]
        dsimp only
        rw [if_neg (not_not_intro hown), bind_error (session_absent hs)]
        exact ⟨_, rfl⟩
      | some s =>
        obtain ⟨trace, hregister⟩ := register_ok ht hown hs
        exact .inl ⟨t, s, trace, rfl, hown, rfl, hregister⟩
    · right
      unfold register
      rw [bind_ok (table_ok ht)]
      dsimp only
      rw [if_pos hown]
      exact ⟨_, rfl⟩

/-! ## Actions that only trace -/

/-- Whether an action changes nothing but the trace. -/
def Quiet (action : Action α) : Prop := ∀ store, ∃ trace, after action store = { store with trace }

theorem quiet_pure (a : α) : Quiet (pure a) := fun store => ⟨store.trace, rfl⟩

theorem quiet_throw (fault : Fault) : Quiet (throw fault : Action α) :=
  fun store => ⟨store.trace, rfl⟩

theorem quiet_outcome (result : Except Fault α) : Quiet (outcome result) := by
  cases result with
  | ok a => exact quiet_pure a
  | error fault => exact quiet_throw fault

theorem quiet_report (level : Trace.Level) (channel : Trace.Channel) (text : String) :
    Quiet (report level channel text) := fun _ => ⟨_, rfl⟩

theorem quiet_table (id : TableId) : Quiet (table id) := by
  intro store
  simp only [after, table, bind, EStateM.bind, get, getThe, MonadStateOf.get, EStateM.get]
  cases store.tables[id.number]? <;> exact ⟨store.trace, rfl⟩

theorem quiet_session (id : SessionId) : Quiet (Store.session id) := by
  intro store
  simp only [after, Store.session, bind, EStateM.bind, get, getThe, MonadStateOf.get, EStateM.get]
  cases store.sessions[id.number]? <;> exact ⟨store.trace, rfl⟩

theorem room_eq (store : Store) : room store = .ok store.settings.room store := rfl

theorem quiet_room : Quiet room := fun store => ⟨store.trace, rfl⟩

/-- What is done quietly after an action. -/
theorem exists_after_bind (action : Action α) {next : α → Action β} (hnext : ∀ a, Quiet (next a))
    (store : Store) : ∃ trace, after (action >>= next) store = { after action store with trace } := by
  simp only [after, bind, EStateM.bind]
  cases action store with
  | ok a store' => exact hnext a store'
  | error fault store' => exact ⟨store'.trace, rfl⟩

theorem exists_after_tryCatch (action : Action α) {handle : Fault → Action α}
    (hhandle : ∀ fault, Quiet (handle fault)) (store : Store) :
    ∃ trace, after (tryCatch action handle) store = { after action store with trace } := by
  simp only [after, tryCatch, tryCatchThe, MonadExceptOf.tryCatch, EStateM.tryCatch]
  cases action store with
  | ok a store' => exact ⟨store'.trace, rfl⟩
  | error fault store' => exact hhandle fault store'

theorem Quiet.bind {action : Action α} {next : α → Action β} (haction : Quiet action)
    (hnext : ∀ a, Quiet (next a)) : Quiet (action >>= next) := by
  intro store
  obtain ⟨trace, hfirst⟩ := haction store
  obtain ⟨trace', hboth⟩ := exists_after_bind action hnext store
  exact ⟨trace', by rw [hboth, hfirst]⟩

/-! ## Adding rows -/

theorem reportInsertion_run (name : String) (row : Row) (store : Store) :
    ∃ trace, reportInsertion name row store = .ok () { store with trace } := by
  unfold reportInsertion
  cases row.words <;> exact ⟨_, rfl⟩

theorem after_insert (h : store.tables[id.number]? = some t) (row : Row) :
    ∃ trace, after (insert id row) store =
      { store with tables := store.tables.set id.number (t.insert row).1, trace } := by
  obtain ⟨trace, hreport⟩ := reportInsertion_run t.name row store
  unfold insert
  rw [after_bind (table_ok h), after_bind hreport]
  rcases t.insert row with ⟨t', _ | _⟩ <;> exact ⟨_, rfl⟩

/-- A refused row is only reported. -/
theorem exists_after_tryInsert (id : TableId) (row : Row) (store : Store) :
    ∃ trace, after (tryInsert id row) store = { after (insert id row) store with trace } := by
  have hhandle : ∀ fault : Fault, Quiet (do
      if !fault.rejectsRow then throw fault
      let t ← table id
      report .warning .table ("insert into " ++ t.name ++ " rejected: " ++ fault.message)
      return false) := by
    intro fault
    have hreport : Quiet (do
        let t ← table id
        report .warning .table ("insert into " ++ t.name ++ " rejected: " ++ fault.message)
        return false) :=
      (quiet_table id).bind fun _ => (quiet_report _ _ _).bind fun _ => quiet_pure false
    cases fault.rejectsRow with
    | false => exact (quiet_throw fault).bind fun _ => hreport
    | true => exact hreport
  unfold tryInsert
  obtain ⟨trace, htry⟩ := exists_after_tryCatch _ hhandle store
  obtain ⟨trace', hbind⟩ :=
    exists_after_bind (discard (insert id row)) (fun _ => quiet_pure true) store
  exact ⟨trace, by rw [htry, hbind, after_discard]⟩

theorem after_tryInsert (h : store.tables[id.number]? = some t) (row : Row) :
    ∃ trace, after (tryInsert id row) store =
      { store with tables := store.tables.set id.number (t.insert row).1, trace } := by
  obtain ⟨trace, hinsert⟩ := after_insert h row
  obtain ⟨trace', htry⟩ := exists_after_tryInsert id row store
  exact ⟨trace', by rw [htry, hinsert]⟩

theorem forM_reportInsertion (name : String) (rows : List Row) (store : Store) :
    ∃ trace, rows.forM (reportInsertion name) store = .ok () { store with trace } := by
  induction rows generalizing store with
  | nil => exact ⟨store.trace, rfl⟩
  | cons row rows ih =>
    obtain ⟨trace, hrow⟩ := reportInsertion_run name row store
    obtain ⟨trace', hrows⟩ := ih { store with trace }
    exact ⟨trace', (bind_ok hrow _).trans hrows⟩

theorem after_build (id : TableId) (b : Builder) (run : Builder → Builder × Except Fault α)
    (store : Store) :
    ∃ trace, after (build id b run) store =
      { store with tables := store.tables.set id.number (run b).1.table, trace } := by
  unfold build
  rcases run b with ⟨loaded, result⟩
  obtain ⟨trace, htrace⟩ :=
    forM_reportInsertion b.table.name (loaded.offered.drop b.offered.length) store
  dsimp only
  rw [after_bind htrace]
  cases result <;> exact ⟨_, rfl⟩

theorem build_run (id : TableId) (b : Builder) (run : Builder → Builder × Except Fault α)
    {loaded : Builder} {a : α} (h : run b = (loaded, .ok a)) (store : Store) :
    ∃ trace, build id b run store =
      .ok (loaded, a) { store with tables := store.tables.set id.number loaded.table, trace } := by
  unfold build
  rw [h]
  obtain ⟨trace, htrace⟩ :=
    forM_reportInsertion b.table.name (loaded.offered.drop b.offered.length) store
  dsimp only
  rw [bind_ok htrace]
  exact ⟨trace, rfl⟩

theorem build_error (id : TableId) (b : Builder) (run : Builder → Builder × Except Fault α)
    {loaded : Builder} {fault : Fault} (h : run b = (loaded, .error fault)) (store : Store) :
    ∃ trace, build id b run store =
      .error fault { store with tables := store.tables.set id.number loaded.table, trace } := by
  unfold build
  rw [h]
  obtain ⟨trace, htrace⟩ :=
    forM_reportInsertion b.table.name (loaded.offered.drop b.offered.length) store
  dsimp only
  rw [bind_ok htrace]
  exact ⟨trace, rfl⟩

theorem build_answer {b loaded : Builder} {run : Builder → Builder × Except Fault α} {a : α}
    (h : build id b run store = .ok (loaded, a) store') : run b = (loaded, .ok a) := by
  unfold build at h
  generalize run b = ran at h ⊢
  obtain ⟨next, result⟩ := ran
  obtain ⟨trace, htrace⟩ :=
    forM_reportInsertion b.table.name (next.offered.drop b.offered.length) store
  dsimp only at h
  rw [bind_ok htrace] at h
  cases result with
  | ok answer =>
    cases h
    rfl
  | error fault => cases h

end KeyedRelations.Store
