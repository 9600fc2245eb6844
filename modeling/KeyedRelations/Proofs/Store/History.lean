import KeyedRelations.Proofs.Store.Changes
import KeyedRelations.Proofs.Store.Results

/-!
# What holds of all tables

A store changes by calls, some of which fail. A property of tables that every way of making a table
and of filling it respects holds of all tables of a store, whatever calls it has come from. Rows
that a caller puts into an index by hand, past the table, are none of these ways.
-/

namespace KeyedRelations

/-- Whether every way of making a table gives it a property, and every way of filling it keeps it. -/
structure Table.Kept (P : Table → Prop) : Prop where
  empty (session : SessionId) (name : String) (schema : Schema) :
    P (Table.empty session name schema)
  insert {t : Table} (ht : P t) (row : Row) : P (t.insert row).1
  snapshot {session : SessionId} {s : Snapshot} {t : Table}
    (h : Table.ofSnapshot session s = .ok t) : P t
  unary {t : Table} {op : UnaryOperation} {r : Relation} (ht : P t) (h : op.result t = .ok r)
    (session : SessionId) (name : String) : P (Table.ofRelation session name r)
  binary {t u : Table} {op : BinaryOperation} {r : Relation} (ht : P t) (hu : P u)
    (h : op.result t u = .ok r) (session : SessionId) (name : String) :
    P (Table.ofRelation session name r)

variable {P : Table → Prop}

theorem Table.Kept.offer (hP : Table.Kept P) {t : Table} (ht : P t) (o : Offer) : P (t.offer o) :=
  Table.offer_induction (P := P) (fun _ row hu => hP.insert hu row) ht o

theorem Table.Kept.new (hP : Table.Kept P) {t : Table} (ht : t.New) : P t := by
  cases ht with
  | empty session name schema => exact hP.empty session name schema
  | snapshot h => exact hP.snapshot h

namespace Store

variable {store store' : Store}

/-! ## Calls -/

/-- What a caller can ask of a store, and a change of its files by somebody else. -/
inductive Call where
  | newSession (directory : Path) (tables : List TableId)
  | privateSession
  | nextName (id : SessionId) (base : String)
  | register (id : SessionId) (t : TableId)
  | declareTable (id : SessionId) (name attributes domains key : String)
  | createTable (id : SessionId) (name attributes domains key : String)
  | newTable (id : SessionId) (name : String) (source : SchemaSource)
  | tableOfSnapshot (id : SessionId) (snapshot : Snapshot)
  | tableOfFrame (id : SessionId) (name : String) (frame : Frame) (domains : DomainSource)
    (key : KeySource)
  | offer (t : TableId) (o : Offer)
  | unary (op : UnaryOperation) (source : TableId) (context : Option SessionId)
  | binary (op : BinaryOperation) (source other : TableId) (context : Option SessionId)
  | project (source : TableId) (attributes : Argument) (context : Option SessionId)
  | equiJoin (source : TableId) (left right : Argument) (other : TableId)
    (context : Option SessionId)
  | select (source : TableId) (argument : Argument)
  | join (source : TableId) (arguments : List Argument) (keywords : List (String × Value))
  | saveTable (id : SessionId) (t : TableId)
  | save (id : SessionId) (name : String)
  | load (id : SessionId) (name : String)
  | changeFiles (files : FileTree)

def perform : Call → Action Unit
  | .newSession directory tables => discard (newSession directory tables)
  | .privateSession => discard privateSession
  | .nextName id base => discard (nextName id base)
  | .register id t => register id t
  | .declareTable id name attributes domains key =>
    discard (declareTable id name attributes domains key)
  | .createTable id name attributes domains key =>
    discard (createTable id name attributes domains key)
  | .newTable id name source => discard (newTable id name source)
  | .tableOfSnapshot id snapshot => discard (tableOfSnapshot id snapshot)
  | .tableOfFrame id name frame domains key => discard (tableOfFrame id name frame domains key)
  | .offer t o => offer t o
  | .unary op source context => discard (applyUnary op source context)
  | .binary op source other context => discard (applyBinary op source other context)
  | .project source attributes context => discard (Store.project source attributes context)
  | .equiJoin source left right other context =>
    discard (Store.equiJoin source left right other context)
  | .select source argument => discard (Store.select source argument)
  | .join source arguments keywords => discard (Store.join source arguments keywords)
  | .saveTable id t => discard (saveTable id t)
  | .save id name => discard (save id name)
  | .load id name => discard (load id name)
  | .changeFiles files => modify fun store => { store with files }

/-- The table that an operation is on, the session that it is for if one is given, and the operation. -/
def Call.operation? : Call → Option (TableId × Option SessionId × Action TableId)
  | .unary op source context => some (source, context, applyUnary op source context)
  | .binary op source other context => some (source, context, applyBinary op source other context)
  | .project source attributes context =>
    some (source, context, Store.project source attributes context)
  | .equiJoin source left right other context =>
    some (source, context, Store.equiJoin source left right other context)
  | .select source argument => some (source, none, Store.select source argument)
  | .join source arguments keywords => some (source, none, Store.join source arguments keywords)
  | _ => none

theorem Call.perform_operation {call : Call} {source : TableId} {context : Option SessionId}
    {action : Action TableId} (h : call.operation? = some (source, context, action)) :
    perform call = discard action ∧ ∀ tables, Makes tables source context action := by
  cases call with
  | unary op source context =>
    cases h
    exact ⟨rfl, fun tables => makes_applyUnary tables op source context⟩
  | binary op source other context =>
    cases h
    exact ⟨rfl, fun tables => makes_applyBinary tables op source other context⟩
  | project source attributes context =>
    cases h
    exact ⟨rfl, fun tables => makes_project tables source attributes context⟩
  | equiJoin source left right other context =>
    cases h
    exact ⟨rfl, fun tables => makes_equiJoin tables source left right other context⟩
  | select source argument =>
    cases h
    exact ⟨rfl, fun tables => makes_select tables source argument⟩
  | join source arguments keywords =>
    cases h
    exact ⟨rfl, fun tables => makes_join tables source arguments keywords⟩
  | _ => cases h

/-- The session that a call registers a table in, and the action that answers the table. -/
def Call.registers? : Call → Option (SessionId × Action TableId)
  | .register id t => some (id, do Store.register id t; return t)
  | .createTable id name attributes domains key =>
    some (id, Store.createTable id name attributes domains key)
  | .load id name => some (id, Store.load id name)
  | _ => none

/-- A call that registers a table makes it, or takes one that is there, and enrols it. -/
theorem Call.perform_registers {call : Call} {id : SessionId} {action : Action TableId}
    (h : call.registers? = some (id, action)) :
    perform call = discard action ∧
      ∃ make, action = enrol id make ∧ ∀ R, Tolerant R → Leads R make := by
  cases call with
  | register id t =>
    cases h
    refine ⟨?_, pure t, rfl, fun R hR => hR.quiet (quiet_pure t)⟩
    funext store
    cases hrun : Store.register id t store with
    | ok answer store' =>
      have henrol : (do Store.register id t; return t : Action TableId) store = .ok t store' :=
        bind_ok hrun _
      exact hrun.trans (discard_ok henrol).symm
    | error fault store' =>
      have henrol : (do Store.register id t; return t : Action TableId) store = .error fault store' :=
        bind_error hrun _
      exact hrun.trans (discard_error henrol).symm
  | createTable id name attributes domains key =>
    cases h
    exact ⟨rfl, _, createTable_eq_enrol id name attributes domains key,
      fun R hR => hR.leads_declareTable id name attributes domains key⟩
  | load id name =>
    cases h
    exact ⟨rfl, _, load_eq_enrol id name, fun R hR => hR.leads_readTable id name⟩
  | _ => cases h

/-- What is no operation, takes no number and registers nothing is put up with. -/
theorem leads_perform {R : Store → Store → Prop} (hR : Tolerant R) {call : Call}
    (hoperation : call.operation? = none) (hname : ∀ id base, call ≠ .nextName id base)
    (hregisters : call.registers? = none) : Leads R (perform call) := by
  cases call with
  | newSession directory tables => exact (hR.leads_newSession directory tables).discard
  | privateSession => exact hR.leads_privateSession.discard
  | nextName id base => exact absurd rfl (hname id base)
  | declareTable id name attributes domains key =>
    exact (hR.leads_declareTable id name attributes domains key).discard
  | newTable id name source => exact (hR.leads_newTable id name source).discard
  | tableOfSnapshot id snapshot => exact (hR.leads_tableOfSnapshot id snapshot).discard
  | tableOfFrame id name frame domains key =>
    exact (hR.leads_tableOfFrame id name frame domains key).discard
  | offer t o => exact hR.leads_offer t o
  | saveTable id t => exact (hR.leads_saveTable id t).discard
  | save id name => exact (hR.leads_save id name).discard
  | changeFiles files => exact fun store => hR.aside store files store.trace
  | register id t => cases hregisters
  | createTable id name attributes domains key => cases hregisters
  | load id name => cases hregisters
  | _ => cases hoperation

/-- What is no operation and takes no number comes down to changes. -/
theorem changing_perform {call : Call} (hoperation : call.operation? = none)
    (hname : ∀ id base, call ≠ .nextName id base) : Leads Changed (perform call) := by
  cases hregisters : call.registers? with
  | none => exact leads_perform tolerant_changed hoperation hname hregisters
  | some registration =>
    obtain ⟨id, action⟩ := registration
    obtain ⟨hperform, make, rfl, hmake⟩ := Call.perform_registers hregisters
    rw [hperform]
    exact (changing_enrol id (hmake Changed tolerant_changed)).discard

/-- Giving away a number changes nothing but the counter of the session, if the session is there. -/
theorem after_nextName (id : SessionId) (base : String) (store : Store) :
    after (nextName id base) store = store ∨
      ∃ s, store.sessions[id.number]? = some s ∧ after (nextName id base) store =
        { store with sessions := store.sessions.set id.number { s with counter := s.counter + 1 } } := by
  cases hs : store.sessions[id.number]? with
  | some s => exact .inr ⟨s, rfl, after_ok (nextName_ok hs base)⟩
  | none =>
    left
    unfold after
    rw [nextName_absent hs base]

/-- What a call does to a store, whether it succeeds or fails. -/
inductive Step (store : Store) : Store → Prop
  | changed {store' : Store} (h : Changed store store') : Step store store'
  | numbered {id : SessionId} {s : Session} (hs : store.sessions[id.number]? = some s) :
    Step store { store with
      sessions := store.sessions.set id.number { s with counter := s.counter + 1 } }
  | made {source : TableId} {context : Option SessionId} {id : TableId} {store' : Store}
    (h : Result source context store (.ok id store')) : Step store store'

theorem step_perform (call : Call) (store : Store) : Step store (after (perform call) store) := by
  cases hcall : call.operation? with
  | some operation =>
    obtain ⟨source, context, action⟩ := operation
    obtain ⟨hperform, hmakes⟩ := Call.perform_operation hcall
    have hresult := hmakes store.tables store rfl
    rw [hperform, after_discard]
    unfold after
    generalize action store = result at hresult ⊢
    cases result with
    | ok id store' => exact .made hresult
    | error fault store' =>
      cases hresult
      exact .changed (changed_aside _ _)
  | none =>
    by_cases hname : ∃ id base, call = .nextName id base
    · obtain ⟨id, base, rfl⟩ := hname
      change Step store (after (discard (nextName id base)) store)
      rw [after_discard]
      rcases after_nextName id base store with heq | ⟨s, hs, heq⟩
      · rw [heq]
        exact .changed (changed_refl store)
      · rw [heq]
        exact .numbered hs
    · push Not at hname
      exact .changed (changing_perform hcall hname store)

/-! ## Histories -/

/-- The stores that any calls lead to, failing ones included. -/
inductive Reached : Store → Prop
  | initial (settings : Settings) (files : FileTree) : Reached (initial settings files)
  | step {store : Store} (hstore : Reached store) (call : Call) : Reached (after (perform call) store)

/-- The store after calls one after the other, of which some may fail. -/
def runAll (calls : List Call) (store : Store) : Store :=
  calls.foldl (fun store call => after (perform call) store) store

theorem Reached.runAll (hstore : Reached store) (calls : List Call) :
    Reached (runAll calls store) := by
  induction calls generalizing store with
  | nil => exact hstore
  | cons call calls ih => exact ih (hstore.step call)

theorem reached_withTable (schema : Schema) : Reached (withTable schema) :=
  .step (.step (.initial bareSettings ⟨[]⟩) (.newSession ⟨"/", []⟩ []))
    (.newTable ⟨0⟩ "t" (.schema schema))

/-- What every table has is kept by changes. -/
theorem Change.forall_tables (hP : Table.Kept P) (h : Change store store')
    (hstore : ∀ t ∈ store.tables, P t) : ∀ t ∈ store'.tables, P t := by
  intro u hu
  cases h with
  | newTable ht =>
    rcases List.mem_append.1 hu with hold | hnew
    · exact hstore u hold
    · rw [List.mem_singleton.1 hnew]
      exact hP.new ht
  | offered ht o =>
    rcases List.mem_or_eq_of_mem_set hu with hold | rfl
    · exact hstore u hold
    · exact hP.offer (hstore _ (List.mem_of_getElem? ht)) o
  | _ => exact hstore u hu

theorem Step.forall_tables (hP : Table.Kept P) (h : Step store store')
    (hstore : ∀ t ∈ store.tables, P t) : ∀ t ∈ store'.tables, P t := by
  cases h with
  | changed h => exact h.induction (fun hchange => hchange.forall_tables hP) hstore
  | numbered hs => exact hstore
  | made h =>
    cases h with
    | made ht hr hs =>
      intro u hu
      rcases List.mem_append.1 hu with hold | hnew
      · exact hstore u hold
      · rw [List.mem_singleton.1 hnew]
        have hsource := hstore _ (List.mem_of_getElem? ht)
        cases hr with
        | unary op h => exact hP.unary hsource h _ _
        | binary op hother h =>
          exact hP.binary hsource (hstore _ (List.mem_of_getElem? hother)) h _ _

/-- What every way of making and filling tables respects holds of all tables that there can be. -/
theorem Reached.forall_tables (hP : Table.Kept P) {store : Store} (hstore : Reached store) :
    ∀ t ∈ store.tables, P t := by
  induction hstore with
  | initial settings files => exact fun t ht => absurd ht List.not_mem_nil
  | step _ call ih => exact (step_perform call _).forall_tables hP ih

end Store

end KeyedRelations
