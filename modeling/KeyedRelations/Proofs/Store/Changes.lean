import KeyedRelations.Proofs.Store.Offers
import KeyedRelations.Store.Snapshots
import Mathlib.Logic.Relation

/-!
# What changes in a store

Apart from operations, which take a number of a session, whatever is done to a store comes down to a
few kinds of changes. `Change` lists them, and every action is a row of such changes, even if it fails
on the way. So what each single change keeps is kept by all that is done.
-/

namespace KeyedRelations

/-- Whether a table is as it is made: without rows, or from a snapshot. -/
inductive Table.New : Table → Prop
  | empty (session : SessionId) (name : String) (schema : Schema) : New (Table.empty session name schema)
  | snapshot {session : SessionId} {s : Snapshot} {t : Table}
    (h : Table.ofSnapshot session s = .ok t) : New t

namespace Store

variable {store store' : Store} {α β : Type}

/-- A change that takes no number of a session. -/
inductive Change : Store → Store → Prop
  /-- Neither tables nor sessions change. -/
  | aside {store : Store} (files : FileTree) (trace : List Trace.Entry) :
    Change store { store with files, trace }
  | newSession {store : Store} (directory : Path) :
    Change store { store with sessions := store.sessions ++ [⟨directory, 0, []⟩] }
  | newTable {store : Store} {t : Table} (ht : t.New) :
    Change store { store with tables := store.tables ++ [t] }
  /-- A table is registered in its session. -/
  | registered {store : Store} {tid : TableId} {t : Table} {s : Session}
    (ht : store.tables[tid.number]? = some t) (hs : store.sessions[t.session.number]? = some s) :
    Change store { store with
      sessions := store.sessions.set t.session.number
        { s with registry := s.registry.enter t.name tid } }
  /-- Rows are offered to a table. -/
  | offered {store : Store} {tid : TableId} {t : Table} (ht : store.tables[tid.number]? = some t)
    (o : Offer) : Change store { store with tables := store.tables.set tid.number (t.offer o) }

def Changed : Store → Store → Prop := Relation.ReflTransGen Change

theorem changed_refl (store : Store) : Changed store store := .refl

theorem Change.changed (h : Change store store') : Changed store store' := .single h

theorem changed_aside (files : FileTree) (trace : List Trace.Entry) :
    Changed store { store with files, trace } := (Change.aside files trace).changed

/-- What single changes keep is kept. -/
theorem Changed.induction {P : Store → Prop} (hchange : ∀ {a b : Store}, Change a b → P a → P b)
    (h : Changed store store') (hstore : P store) : P store' := by
  induction h with
  | refl => exact hstore
  | tail _ hlast ih => exact hchange hlast ih

theorem offer_absent {id : TableId} (h : store.tables[id.number]? = none) (o : Offer) :
    after (offer id o) store = store := by
  cases o with
  | insert row =>
    unfold offer
    rw [after_discard]
    simp only [after, tryInsert, bind, EStateM.bind, tryCatch, tryCatchThe,
      MonadExceptOf.tryCatch, EStateM.tryCatch, discard, Functor.discard, Functor.mapConst,
      Function.comp, EStateM.map, insert_absent h]
    rfl
  | insertOrRaise row =>
    unfold offer
    rw [after_discard]
    exact after_bind_table h _
  | append builder row => exact after_bind_table h _
  | extend builder rows => exact after_bind_table h _

/-! ## Rules -/

/-- Whether a relation between stores puts up with all changes but registrations, one after the other. -/
structure Tolerant (R : Store → Store → Prop) : Prop where
  refl (store : Store) : R store store
  trans {a b c : Store} (hab : R a b) (hbc : R b c) : R a c
  aside (store : Store) (files : FileTree) (trace : List Trace.Entry) :
    R store { store with files, trace }
  newSession (store : Store) (directory : Path) :
    R store { store with sessions := store.sessions ++ [⟨directory, 0, []⟩] }
  newTable (store : Store) {t : Table} (ht : t.New) :
    R store { store with tables := store.tables ++ [t] }
  offered {store : Store} {tid : TableId} {t : Table} (ht : store.tables[tid.number]? = some t)
    (o : Offer) : R store { store with tables := store.tables.set tid.number (t.offer o) }

theorem tolerant_changed : Tolerant Changed where
  refl := changed_refl
  trans := Relation.ReflTransGen.trans
  aside _ files trace := changed_aside files trace
  newSession _ directory := (Change.newSession directory).changed
  newTable _ _ ht := (Change.newTable ht).changed
  offered ht o := (Change.offered ht o).changed

/-- Whether an action leads to related stores, up to its failure if it fails. -/
def Leads (R : Store → Store → Prop) (action : Action α) : Prop :=
  ∀ store, R store (after action store)

variable {R : Store → Store → Prop}

theorem Leads.discard {action : Action α} (haction : Leads R action) : Leads R (discard action) := by
  intro store
  rw [after_discard]
  exact haction store

namespace Tolerant

variable (hR : Tolerant R)

include hR

theorem quiet {action : Action α} (h : Quiet action) : Leads R action := by
  intro store
  obtain ⟨trace, htrace⟩ := h store
  rw [htrace]
  exact hR.aside store store.files trace

theorem bind_at {action : Action α} {next : α → Action β} (haction : R store (after action store))
    (hnext : ∀ a, Leads R (next a)) : R store (after (action >>= next) store) := by
  simp only [after, Bind.bind, EStateM.bind] at haction ⊢
  generalize action store = result at haction ⊢
  cases result with
  | ok a store' => exact hR.trans haction (hnext a store')
  | error fault store' => exact haction

theorem bind {action : Action α} {next : α → Action β} (haction : Leads R action)
    (hnext : ∀ a, Leads R (next a)) : Leads R (action >>= next) :=
  fun store => hR.bind_at (haction store) hnext

theorem tryCatch {action : Action α} {handle : Fault → Action α} (haction : Leads R action)
    (hhandle : ∀ fault, Leads R (handle fault)) : Leads R (tryCatch action handle) := by
  intro store
  have hfirst := haction store
  simp only [after, MonadExcept.tryCatch, tryCatchThe, MonadExceptOf.tryCatch,
    EStateM.tryCatch] at hfirst ⊢
  generalize action store = result at hfirst ⊢
  cases result with
  | ok a store' => exact hfirst
  | error fault store' => exact hR.trans hfirst (hhandle fault store')

/-- What is done with a table that is there. -/
theorem table {id : TableId} {next : Table → Action α}
    (hnext : ∀ t, store.tables[id.number]? = some t → R store (after (next t) store)) :
    R store (after (Store.table id >>= next) store) := by
  cases ht : store.tables[id.number]? with
  | some t =>
    rw [after_bind (table_ok ht)]
    exact hnext t ht
  | none =>
    rw [after_bind_table ht]
    exact hR.refl store

/-- What is done with a session that is there. -/
theorem session {id : SessionId} {next : Session → Action α}
    (hnext : ∀ s, store.sessions[id.number]? = some s → R store (after (next s) store)) :
    R store (after (Store.session id >>= next) store) := by
  cases hs : store.sessions[id.number]? with
  | some s =>
    rw [after_bind (session_ok hs)]
    exact hnext s hs
  | none =>
    simp only [after, bind_error (session_absent hs)]
    exact hR.refl store

theorem outcome {result : Except Fault α} {next : α → Action β}
    (hnext : ∀ a, result = .ok a → Leads R (next a)) : Leads R (Store.outcome result >>= next) := by
  cases result with
  | ok a => exact hnext a rfl
  | error fault => exact hR.refl

/-! ## Sessions -/

theorem leads_newSession (directory : Path) (tables : List TableId) :
    Leads R (Store.newSession directory tables) := by
  cases tables with
  | nil => exact fun store => hR.newSession store directory
  | cons first rest => exact hR.quiet ((quiet_table first).bind fun _ => quiet_throw _)

theorem leads_privateSession : Leads R privateSession :=
  fun store => hR.leads_newSession store.settings.directory [] store

/-! ## Rows -/

theorem leads_offer (id : TableId) (o : Offer) : Leads R (offer id o) := by
  intro store
  cases ht : store.tables[id.number]? with
  | some t =>
    obtain ⟨trace, hoffer⟩ := after_offer ht o
    rw [hoffer]
    exact hR.trans (hR.offered ht o) (hR.aside _ _ trace)
  | none =>
    rw [offer_absent ht]
    exact hR.refl store

/-! ## Tables -/

theorem leads_addTable {t : Table} (ht : t.New) : Leads R (addTable t) :=
  fun store => hR.newTable store ht

theorem leads_declareTable (id : SessionId) (name attributes domains key : String) :
    Leads R (declareTable id name attributes domains key) := by
  apply hR.bind (hR.quiet (quiet_outcome _))
  intro schema
  apply hR.bind (hR.leads_addTable (.empty id name schema))
  intro t
  exact hR.quiet ((quiet_report _ _ _).bind fun _ => quiet_pure t)

theorem leads_newTable (id : SessionId) (name : String) (source : SchemaSource) :
    Leads R (Store.newTable id name source) :=
  hR.outcome fun schema _ => hR.leads_addTable (.empty id name schema)

theorem leads_tableOfSnapshot (id : SessionId) (snapshot : Snapshot) :
    Leads R (tableOfSnapshot id snapshot) :=
  hR.outcome fun _ ht => hR.leads_addTable (.snapshot ht)

theorem leads_tableOfFrame (id : SessionId) (name : String) (frame : Frame)
    (domains : DomainSource) (key : KeySource) :
    Leads R (tableOfFrame id name frame domains key) := by
  apply hR.bind (hR.quiet (quiet_outcome _))
  intro schema store
  let t := Table.empty id name schema
  let tid : TableId := ⟨store.tables.length⟩
  let grown : Store := { store with tables := store.tables ++ [t] }
  have hgrown : R store grown := hR.newTable store (.empty id name schema)
  have hmade : addTable t store = .ok tid grown := rfl
  have ht : grown.tables[tid.number]? = some t := List.getElem?_concat_length
  rw [after_bind hmade]
  rcases frame.readable with ⟨rows, farYear?⟩
  obtain ⟨trace, hbuild⟩ :=
    after_build tid (.ofTable t) (fun b => b.extend (rows.map .tuple)) grown
  have hfilled : R grown (after (build tid (.ofTable t) (·.extend (rows.map .tuple))) grown) := by
    have hoffer := hR.offered ht (.extend (.ofTable t) (rows.map .tuple))
    rw [hbuild]
    exact hR.trans hoffer (hR.aside _ _ trace)
  have hend (b : Builder) : Quiet (if b.rejected ≠ [] then do
        report .warning .table
          (Text.grouped b.rejected.length ++ " row(s) rejected while loading " ++ name)
        return tid
      else return tid) := by
    split_ifs
    · exact (quiet_report _ _ _).bind fun _ => quiet_pure tid
    · exact quiet_pure tid
  refine hR.trans hgrown (hR.bind_at hfilled fun built => ?_)
  cases farYear? with
  | some year => exact hR.bind (hR.quiet (quiet_throw _)) fun _ => hR.quiet (hend built.1)
  | none => exact hR.quiet (hend built.1)

/-! ## Files -/

theorem leads_onFiles (action : FileAction α) : Leads R (onFiles action) := by
  intro store
  unfold after onFiles
  cases action store.files <;> exact hR.aside store _ store.trace

theorem leads_saveTable (id : SessionId) (t : TableId) : Leads R (saveTable id t) := by
  apply hR.bind (hR.quiet (quiet_session id))
  intro s
  apply hR.bind (hR.quiet (quiet_table t))
  intro t
  have hend : ∀ path : Path, Leads R (do
      report .info .snapshot
        ("saved " ++ t.name ++ " (" ++ Text.grouped t.size ++ " rows) to " ++ path.text)
      return path) := fun path => hR.quiet ((quiet_report _ _ _).bind fun _ => quiet_pure path)
  apply hR.bind (hR.quiet quiet_room)
  intro room
  refine hR.bind ?_ fun _ => hend _
  apply hR.tryCatch (hR.leads_onFiles _)
  intro fault
  cases fault with
  | file cause => exact hR.bind (hR.leads_onFiles _) fun _ => hR.quiet (quiet_throw _)
  | _ => exact hR.quiet (quiet_throw _)

theorem leads_save (id : SessionId) (name : String) : Leads R (save id name) := by
  apply hR.bind (hR.quiet (quiet_session id))
  intro s
  split
  · exact hR.leads_saveTable id _
  · exact hR.quiet (quiet_throw _)

theorem leads_readSnapshot (directory : Path) (name : String) :
    Leads R (readSnapshot directory name) := by
  refine hR.bind (hR.tryCatch (hR.leads_onFiles _) fun fault => ?_) fun bytes => ?_
  · cases fault <;> exact hR.quiet (quiet_throw _)
  · apply hR.bind (hR.quiet quiet_room)
    intro room
    split
    · exact hR.quiet ((quiet_report _ _ _).bind fun _ => quiet_pure _)
    · exact hR.quiet (quiet_throw _)
    · exact hR.quiet (quiet_throw _)
    · exact hR.quiet (quiet_throw _)

end Tolerant

/-! ## Registrations -/

/-- Makes a table and registers it. -/
def enrol (id : SessionId) (make : Action TableId) : Action TableId := do
  let t ← make
  register id t
  return t

/-- What a fault in the content of a snapshot is reported as. -/
def invalidSnapshot (name : String) : Fault → Fault
  | .typing cause => .snapshot (.invalid name cause.message)
  | .definition cause => .snapshot (.invalid name cause.message)
  | fault => fault

/-- Makes the table of the snapshot that a session has under a name. -/
def readTable (id : SessionId) (name : String) : Action TableId := do
  let snapshot ← readSnapshot (← session id).directory name
  addTable (← outcome ((Table.ofSnapshot id snapshot).mapError (invalidSnapshot name)))

theorem createTable_eq_enrol (id : SessionId) (name attributes domains key : String) :
    createTable id name attributes domains key = enrol id (declareTable id name attributes domains key) :=
  rfl

theorem load_eq_enrol (id : SessionId) (name : String) : load id name = enrol id (readTable id name) := by
  unfold load enrol readTable
  simp only [bind_assoc]
  congr 1
  funext s
  congr 1
  funext snapshot
  cases Table.ofSnapshot id snapshot with
  | ok t => rfl
  | error fault => cases fault <;> rfl

theorem Tolerant.leads_readTable (hR : Tolerant R) (id : SessionId) (name : String) :
    Leads R (readTable id name) := by
  apply hR.bind (hR.quiet (quiet_session id))
  intro s
  apply hR.bind (hR.leads_readSnapshot s.directory name)
  intro snapshot
  cases ht : Table.ofSnapshot id snapshot with
  | ok t => exact hR.leads_addTable (.snapshot ht)
  | error fault => exact hR.quiet (quiet_throw _)

theorem changing_register (id : SessionId) (tid : TableId) : Leads Changed (register id tid) := by
  intro store
  apply tolerant_changed.table
  intro t ht
  dsimp only
  split_ifs with hown
  · exact changed_refl store
  · obtain rfl : t.session = id := not_ne_iff.1 hown
    apply tolerant_changed.session
    intro s hs
    exact (Change.registered ht hs).changed.trans (changed_aside _ _)

theorem changing_enrol (id : SessionId) {make : Action TableId} (hmake : Leads Changed make) :
    Leads Changed (enrol id make) := by
  apply tolerant_changed.bind hmake
  intro t
  exact tolerant_changed.bind (changing_register id t) fun _ => tolerant_changed.quiet (quiet_pure t)

end Store

end KeyedRelations
