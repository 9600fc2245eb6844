import KeyedRelations.Proofs.Store.DerivedNames
import KeyedRelations.Proofs.Store.Registries

/-!
# What the registry of a session shows

The registry of a session is made of what has been registered in the session, whichever way: the tables
of all calls that register one and succeed, entered one after the other. Nothing else that is done to a
store changes it, and neither does a call that fails. So what a session answers to a name, the tables
that it lists and its names all follow from the registrations so far.
-/

namespace KeyedRelations.Store

variable {store store' : Store} {id : SessionId} {call : Call}

/-- The registry of a session, which is empty if there is no such session yet. -/
def registryOf (store : Store) (id : SessionId) : Registry :=
  (store.sessions[id.number]?.map (·.registry)).getD []

theorem registryOf_eq {s : Session} (hs : store.sessions[id.number]? = some s) :
    store.registryOf id = s.registry := by
  rw [registryOf, hs]
  rfl

theorem registryOf_set {other : SessionId} {s s' : Session}
    (hs : store.sessions[other.number]? = some s)
    (hset : store'.sessions = store.sessions.set other.number s') (id : SessionId) :
    store'.registryOf id = if other = id then s'.registry else store.registryOf id := by
  unfold registryOf
  rw [getElem?_sessions_set hs hset]
  split_ifs <;> rfl

/-! ## What changes no registry -/

/-- Whether the registries of all sessions are the same. -/
def SameRegistries (store store' : Store) : Prop := ∀ id, store'.registryOf id = store.registryOf id

theorem tolerant_sameRegistries : Tolerant SameRegistries where
  refl _ _ := rfl
  trans hab hbc id := (hbc id).trans (hab id)
  aside _ _ _ _ := rfl
  newSession _ _ id := getD_map_newSession (·.registry) _ id
  newTable _ _ _ _ := rfl
  offered _ _ _ := rfl

theorem sameRegistries_nextNumber {s : Session} (hs : store.sessions[id.number]? = some s)
    (hset : store'.sessions = store.sessions.set id.number { s with counter := s.counter + 1 }) :
    SameRegistries store store' := by
  intro other
  rw [registryOf_set hs hset]
  split_ifs with hid
  · rw [← hid, registryOf_eq hs]
  · rfl

theorem Result.sameRegistries {source : TableId} {context : Option SessionId} {action : Action TableId}
    (h : Result source context store (action store)) : SameRegistries store (after action store) := by
  unfold after
  generalize action store = result at h ⊢
  cases h with
  | made ht hr hs => exact sameRegistries_nextNumber hs rfl
  | refused => exact fun _ => rfl

/-- Only what registers a table changes a registry. -/
theorem leads_sameRegistries (hregisters : call.registers? = none) :
    Leads SameRegistries (perform call) := by
  intro store
  cases hoperation : call.operation? with
  | some operation =>
    obtain ⟨source, context, action⟩ := operation
    obtain ⟨hperform, hmakes⟩ := Call.perform_operation hoperation
    rw [hperform, after_discard]
    exact (hmakes store.tables store rfl).sameRegistries
  | none =>
    by_cases hname : ∃ id base, call = .nextName id base
    · obtain ⟨id, base, rfl⟩ := hname
      change SameRegistries store (after (discard (nextName id base)) store)
      rw [after_discard]
      rcases after_nextName id base store with heq | ⟨s, hs, heq⟩
      · rw [heq]
        exact fun _ => rfl
      · rw [heq]
        exact sameRegistries_nextNumber hs rfl
    · push Not at hname
      exact leads_perform tolerant_sameRegistries hoperation hname hregisters store

/-! ## Registrations -/

/-- That a table has been registered in a session under its name. -/
structure Registration where
  session : SessionId
  name : String
  table : TableId
  deriving DecidableEq

/-- What a call registers, if it registers a table and succeeds. -/
def Call.registration? (call : Call) (store : Store) : Option Registration := do
  let registers ← call.registers?
  let table ← answer? registers.2 store
  let t ← (after registers.2 store).tables[table.number]?
  return ⟨registers.1, t.name, table⟩

/-- All that a run registers, in order. -/
def registrations : List Call → Store → List Registration
  | [], _ => []
  | call :: calls, store =>
    (call.registration? store).toList ++ registrations calls (after (perform call) store)

theorem registrations_cons (call : Call) (calls : List Call) (store : Store) :
    registrations (call :: calls) store =
      (call.registration? store).toList ++ registrations calls (after (perform call) store) := rfl

theorem registrations_append (calls more : List Call) (store : Store) :
    registrations (calls ++ more) store =
      registrations calls store ++ registrations more (runAll calls store) := by
  induction calls generalizing store with
  | nil => rfl
  | cons call calls ih =>
    rw [List.cons_append, registrations_cons, registrations_cons, ih, List.append_assoc]
    rfl

/-- The names and tables that registrations enter into the registry of a session. -/
def entriesOf (id : SessionId) (log : List Registration) : List (String × TableId) :=
  (log.filter fun r => r.session = id).map fun r => (r.name, r.table)

theorem entriesOf_append (id : SessionId) (log more : List Registration) :
    entriesOf id (log ++ more) = entriesOf id log ++ entriesOf id more := by
  simp [entriesOf]

/-- Whether what is registered is a table of the session and has the name. -/
def Registration.Owned (r : Registration) (store : Store) : Prop :=
  ∃ t, store.tables[r.table.number]? = some t ∧ t.session = r.session ∧ t.name = r.name

/-- Whether a registration is all that changes the registries. -/
structure Entered (r : Registration) (store store' : Store) : Prop where
  owned : r.Owned store'
  registryOf_eq (id : SessionId) : store'.registryOf id =
    if r.session = id then (store.registryOf id).enter r.name r.table else store.registryOf id

/-- The ways in which the making and registering of a table can end. -/
inductive Enrolment (id : SessionId) (store : Store) : EStateM.Result Fault Store TableId → Prop
  | entered {r : Registration} {store' : Store} (hsession : r.session = id)
    (h : Entered r store store') : Enrolment id store (.ok r.table store')
  | refused {fault : Fault} {store' : Store} (h : SameRegistries store store') :
    Enrolment id store (.error fault store')

variable {r : Registration}

theorem Registration.Owned.extends (h : r.Owned store) (hstore : Extends store store') :
    r.Owned store' := by
  obtain ⟨t, ht, hsession, hname⟩ := h
  obtain ⟨t', ht', hname', hsession'⟩ := hstore.table _ t ht
  exact ⟨t', ht', hsession'.trans hsession, hname'.trans hname⟩

theorem enrolment {make : Action TableId} (hmake : Leads SameRegistries make) (id : SessionId)
    (store : Store) : Enrolment id store (enrol id make store) := by
  have hsame := hmake store
  unfold enrol
  cases hmade : make store with
  | error fault made =>
    rw [after_error hmade] at hsame
    rw [bind_error hmade]
    exact .refused hsame
  | ok table made =>
    rw [after_ok hmade] at hsame
    rw [bind_ok hmade]
    -- What is made is registered only if it is a table of the session.
    rcases register_cases id table made with
      ⟨t, s, trace, ht, hown, hs, hregister⟩ | ⟨fault, hregister⟩
    · rw [bind_ok hregister]
      refine .entered (r := ⟨id, t.name, table⟩) rfl ⟨⟨t, ht, hown, rfl⟩, fun other => ?_⟩
      rw [registryOf_set hs rfl, ← registryOf_eq hs, hsame id, hsame other]
      split_ifs with hid
      · rw [← hid]
      · rfl
    · rw [bind_error hregister]
      exact .refused hsame

/-! ## Calls -/

theorem registration?_ok {action : Action TableId} {table : TableId} {t : Table}
    (hregisters : call.registers? = some (id, action)) (haction : action store = .ok table store')
    (ht : store'.tables[table.number]? = some t) :
    call.registration? store = some ⟨id, t.name, table⟩ := by
  simp [Call.registration?, hregisters, answer?_ok haction, after_ok haction, ht]

theorem registration?_error {action : Action TableId} {fault : Fault}
    (hregisters : call.registers? = some (id, action))
    (haction : action store = .error fault store') : call.registration? store = none := by
  simp [Call.registration?, hregisters, answer?_error haction]

/-- A call enters what it registers, and changes no registry if it registers nothing. -/
theorem perform_cases (call : Call) (store : Store) :
    (∃ r, call.registration? store = some r ∧ Entered r store (after (perform call) store)) ∨
      call.registration? store = none ∧ SameRegistries store (after (perform call) store) := by
  cases hregisters : call.registers? with
  | none =>
    right
    exact ⟨by simp [Call.registration?, hregisters], leads_sameRegistries hregisters store⟩
  | some registers =>
    obtain ⟨id, action⟩ := registers
    obtain ⟨hperform, make, hmake, hleads⟩ := Call.perform_registers hregisters
    have hend := enrolment (hleads SameRegistries tolerant_sameRegistries) id store
    rw [← hmake] at hend
    rw [hperform, after_discard]
    cases haction : action store with
    | ok table store' =>
      rw [haction] at hend
      cases hend with
      | @entered r _ hsession hentered =>
        obtain ⟨t, ht, -, hname⟩ := hentered.owned
        rw [registration?_ok hregisters haction ht, after_ok haction, hname, ← hsession]
        exact .inl ⟨r, rfl, hentered⟩
    | error fault store' =>
      rw [haction] at hend
      cases hend with
      | refused hsame =>
        rw [registration?_error hregisters haction, after_error haction]
        exact .inr ⟨rfl, hsame⟩

/-- A call that fails registers nothing. -/
theorem registration?_of_fails {fault : Fault} (h : perform call store = .error fault store') :
    call.registration? store = none := by
  cases hregisters : call.registers? with
  | none => simp [Call.registration?, hregisters]
  | some registers =>
    obtain ⟨id, action⟩ := registers
    obtain ⟨hperform, -⟩ := Call.perform_registers hregisters
    cases haction : action store with
    | ok table store'' =>
      rw [hperform, discard_ok haction] at h
      cases h
    | error fault store'' => exact registration?_error hregisters haction

/-- A table can be registered just in its session. -/
theorem registration?_register_iff {tid : TableId} {t : Table} {s : Session}
    (ht : store.tables[tid.number]? = some t) (hs : store.sessions[id.number]? = some s) :
    (Call.register id tid).registration? store = some ⟨id, t.name, tid⟩ ↔ t.session = id := by
  constructor
  · intro hregistered
    rcases perform_cases (.register id tid) store with ⟨r, hr, hentered⟩ | ⟨hnone, -⟩
    · cases hregistered.symm.trans hr
      obtain ⟨u, hu, hsession, -⟩ := hentered.owned
      obtain ⟨u', hu', -, hkept⟩ := (extends_perform (.register id tid) store).table _ t ht
      cases hu.symm.trans hu'
      exact hkept.symm.trans hsession
    · cases hregistered.symm.trans hnone
  · intro hown
    obtain ⟨trace, hregister⟩ := register_ok ht hown hs
    have haction : (do register id tid; return tid : Action TableId) store = .ok tid _ :=
      bind_ok hregister _
    exact registration?_ok rfl haction ht

/-! ## Runs -/

theorem registryOf_runAll (calls : List Call) (store : Store) (id : SessionId) :
    (runAll calls store).registryOf id =
      (store.registryOf id).enterAll (entriesOf id (registrations calls store)) := by
  induction calls generalizing store with
  | nil => rfl
  | cons call calls ih =>
    refine (ih _).trans ?_
    rw [registrations_cons, entriesOf_append, Registry.enterAll_append]
    congr 1
    rcases perform_cases call store with ⟨r, hr, hentered⟩ | ⟨hnone, hsame⟩
    · rw [hr, hentered.registryOf_eq id]
      by_cases hid : r.session = id
      · simp [entriesOf, Registry.enterAll, hid]
      · simp [entriesOf, Registry.enterAll, hid]
    · rw [hnone]
      exact hsame id

/-- What a run registers stays a table of its session and keeps its name. -/
theorem owned_of_mem_registrations {calls : List Call} (hr : r ∈ registrations calls store) :
    r.Owned (runAll calls store) := by
  induction calls generalizing store with
  | nil => exact absurd hr List.not_mem_nil
  | cons call calls ih =>
    rcases List.mem_append.1 hr with hnow | hlater
    · rcases perform_cases call store with ⟨r', hr', hentered⟩ | ⟨hnone, -⟩
      · rw [hr', Option.toList_some, List.mem_singleton] at hnow
        rw [hnow]
        exact hentered.owned.extends (extends_runAll calls _)
      · rw [hnone] at hnow
        exact absurd hnow List.not_mem_nil
    · exact ih hlater

/-! ## Views -/

/-- What a session shows after tables have been entered into its registry. -/
structure Views (inherited : List String) (id : SessionId) (entries : List (String × TableId))
    (store : Store) (s : Session) : Prop where
  session : store.sessions[id.number]? = some s
  /-- Under a name is the latest table of the name. -/
  item_latest {name : String} {t : TableId} (h : entries.reverse.lookup name = some t) :
    item id name store = .ok t store
  item_missing {name : String} (h : name ∉ entries.map (·.1)) :
    item id name store = .error (.noTable name) store
  has_iff (name : String) : s.has name = true ↔ name ∈ entries.map (·.1)
  /-- There is one table for every name, in the order in which the names came up. -/
  registered : ∃ tables, registered id store = .ok tables store ∧
    tables.map some = (entries.map (·.1)).eraseDups.map fun name => entries.reverse.lookup name
  owned {name : String} {t : TableId} (h : item id name store = .ok t store) :
    Registration.Owned ⟨id, name, t⟩ store
  member_own {name : String} (hown : Session.isOwn inherited name = true) :
    member inherited id name store = .ok (.own name) store
  member_table {name : String} {t : TableId} (hown : Session.isOwn inherited name = false)
    (h : item id name store = .ok t store) : member inherited id name store = .ok (.table t) store
  member_missing {name : String} (hown : Session.isOwn inherited name = false)
    (h : name ∉ entries.map (·.1)) : member inherited id name store = .error (.noAttribute name) store
  names_sorted : (s.names inherited).Pairwise (· < ·)
  mem_names (name : String) : name ∈ s.names inherited ↔
    Session.isOwn inherited name = true ∨ name ∈ entries.map (·.1)

section

variable {s : Session} {name : String} (hs : store.sessions[id.number]? = some s)

include hs

theorem item_eq_outcome (name : String) : item id name store =
    outcome ((s.registry.find? name).elim (.error (.noTable name)) .ok) store := by
  unfold item
  rw [bind_ok (session_ok hs)]
  cases s.registry.find? name <;> rfl

theorem item_eq_ok_iff {t : TableId} :
    item id name store = .ok t store ↔ s.registry.find? name = some t := by
  rw [item_eq_outcome hs]
  cases s.registry.find? name with
  | none =>
    constructor
    · intro h
      cases h
    · intro h
      cases h
  | some u =>
    constructor
    · intro h
      cases h
      rfl
    · intro h
      cases h
      rfl

theorem member_eq_outcome {inherited : List String} (hown : Session.isOwn inherited name = false) :
    member inherited id name store = outcome
      ((s.registry.find? name).elim (.error (.noAttribute name)) fun t => .ok (.table t)) store := by
  unfold member
  rw [bind_ok (session_ok hs), hown, if_neg Bool.false_ne_true]
  cases s.registry.find? name <;> rfl

variable {entries : List (String × TableId)} (hregistry : s.registry = Registry.enterAll [] entries)

include hregistry

/-- A registry into which tables of the session have been entered under their names makes all views
agree. -/
theorem views_of_registry
    (howned : ∀ entry ∈ entries, Registration.Owned ⟨id, entry.1, entry.2⟩ store)
    (inherited : List String) : Views inherited id entries store s where
  session := hs
  item_latest h := by
    rw [item_eq_ok_iff hs, hregistry, Registry.find?_enterAll]
    exact h
  item_missing h := by
    rw [item_eq_outcome hs, Session.find?_missing hregistry h]
    rfl
  has_iff := Session.has_iff_mem hregistry
  registered := by
    refine ⟨s.registry.map (·.2), bind_ok (session_ok hs) _, ?_⟩
    rw [hregistry]
    exact Registry.map_snd_enterAll entries
  owned {name t} h := by
    rw [item_eq_ok_iff hs, hregistry, Registry.find?_enterAll, List.lookup_eq_some_iff] at h
    obtain ⟨later, earlier, hentries, -⟩ := h
    apply howned (name, t)
    rw [← List.mem_reverse, hentries]
    simp
  member_own hown := by
    unfold member
    rw [bind_ok (session_ok hs), if_pos hown]
    rfl
  member_table hown h := by
    rw [member_eq_outcome hs hown, (item_eq_ok_iff hs).1 h]
    rfl
  member_missing hown h := by
    rw [member_eq_outcome hs hown, Session.find?_missing hregistry h]
    rfl
  names_sorted := s.pairwise_names inherited
  mem_names name := by rw [Session.mem_names, Session.has_iff_mem hregistry]

end

theorem mem_entriesOf {log : List Registration} {entry : String × TableId} :
    entry ∈ entriesOf id log ↔ ⟨id, entry.1, entry.2⟩ ∈ log := by
  unfold entriesOf
  constructor
  · intro h
    obtain ⟨r, hr, rfl⟩ := List.mem_map.1 h
    obtain ⟨hlog, hid⟩ := List.mem_filter.1 hr
    rwa [← of_decide_eq_true hid]
  · intro h
    exact List.mem_map.2 ⟨_, List.mem_filter.2 ⟨h, decide_eq_true rfl⟩, rfl⟩

theorem views_runAll (settings : Settings) (files : FileTree) (calls : List Call)
    (inherited : List String) {s : Session}
    (hs : (runAll calls (initial settings files)).sessions[id.number]? = some s) :
    Views inherited id (entriesOf id (registrations calls (initial settings files)))
      (runAll calls (initial settings files)) s := by
  apply views_of_registry hs
  · rw [← registryOf_eq hs]
    exact registryOf_runAll calls (initial settings files) id
  · intro entry hentry
    exact owned_of_mem_registrations (mem_entriesOf.1 hentry)

/-- Whatever has been done to a store and whatever has failed, all views of a session show the tables
that have been registered in it: under every name the latest one, in the order in which the names came
up. A table can be registered just in its session, and a call that fails changes none of the views. -/
theorem registry_views (settings : Settings) (files : FileTree) (calls : List Call)
    (inherited : List String) (id : SessionId) (s : Session) :
    let start := initial settings files
    let store := runAll calls start
    let entries := entriesOf id (registrations calls start)
    store.sessions[id.number]? = some s →
      Views inherited id entries store s ∧
      (∀ (tid : TableId) (t : Table), store.tables[tid.number]? = some t →
        ((Call.register id tid).registration? store = some ⟨id, t.name, tid⟩ ↔ t.session = id)) ∧
      ∀ (call : Call) (fault : Fault) (store' : Store), perform call store = .error fault store' →
        ∃ s', Views inherited id entries store' s' := by
  intro start store entries hs
  refine ⟨views_runAll settings files calls inherited hs,
    fun tid t ht => registration?_register_iff ht hs, fun call fault store' hfailed => ?_⟩
  -- The run goes on with the call that fails, which adds nothing to what has been registered.
  have hafter : runAll (calls ++ [call]) start = store' := by
    unfold runAll
    rw [List.foldl_append]
    exact after_error hfailed
  have hnothing : registrations (calls ++ [call]) start = registrations calls start := by
    rw [registrations_append, registrations_cons, registration?_of_fails hfailed]
    simp [registrations]
  obtain ⟨s', hs', -⟩ := (extends_perform call store).session _ s hs
  rw [after_error hfailed, ← hafter] at hs'
  have hviews := views_runAll settings files (calls ++ [call]) inherited hs'
  refine ⟨s', ?_⟩
  rwa [hafter, hnothing] at hviews

/-- Calls for two sessions. Names are registered again by all three calls that register tables, a table
of the other session is refused, and a snapshot is missing. -/
def replacing : List Call :=
  [.newSession ⟨"/", []⟩ [], .newSession ⟨"/", []⟩ [],
    .createTable ⟨0⟩ "b" "k" "Integer" "k", .createTable ⟨0⟩ "tables" "k" "Integer" "k",
    .createTable ⟨1⟩ "a" "k" "Integer" "k", .register ⟨0⟩ ⟨2⟩, .createTable ⟨0⟩ "b" "k" "Char" "k",
    .load ⟨0⟩ "c", .saveTable ⟨0⟩ ⟨1⟩, .load ⟨0⟩ "tables", .register ⟨0⟩ ⟨0⟩]

/-- The name `b` is that of its first table again, the name `tables` that of the loaded table, and the
attribute `tables` is none of them. -/
theorem registry_views_replaced :
    let start := initial bareSettings ⟨[]⟩
    let store := runAll replacing start
    let entries := entriesOf ⟨0⟩ (registrations replacing start)
    entries = [("b", ⟨0⟩), ("tables", ⟨1⟩), ("b", ⟨3⟩), ("tables", ⟨4⟩), ("b", ⟨0⟩)] ∧
      (∃ s, Views ["__class__"] ⟨0⟩ entries store s) ∧
      item ⟨0⟩ "b" store = .ok ⟨0⟩ store ∧ item ⟨0⟩ "a" store = .error (.noTable "a") store ∧
      member ["__class__"] ⟨0⟩ "b" store = .ok (.table ⟨0⟩) store ∧
      member ["__class__"] ⟨0⟩ "tables" store = .ok (.own "tables") store ∧
      ∃ fault store' s', perform (.register ⟨0⟩ ⟨2⟩) store = .error fault store' ∧
        Views ["__class__"] ⟨0⟩ entries store' s' := by
  have hentries : entriesOf ⟨0⟩ (registrations replacing (initial bareSettings ⟨[]⟩)) =
      [("b", ⟨0⟩), ("tables", ⟨1⟩), ("b", ⟨3⟩), ("tables", ⟨4⟩), ("b", ⟨0⟩)] := by
    decide +kernel
  have hsession :
      (runAll replacing (initial bareSettings ⟨[]⟩)).sessions[0]?.isSome = true := by
    decide +kernel
  have hrefused : answer? (perform (.register ⟨0⟩ ⟨2⟩))
      (runAll replacing (initial bareSettings ⟨[]⟩)) = none := by
    decide +kernel
  intro start store entries
  obtain ⟨s, hs⟩ := Option.isSome_iff_exists.1 hsession
  obtain ⟨fault, store', hfailed⟩ := exists_of_answer?_eq_none hrefused
  obtain ⟨hviews, -, hfailing⟩ :=
    registry_views bareSettings ⟨[]⟩ replacing ["__class__"] ⟨0⟩ s hs
  obtain ⟨s', hviews'⟩ := hfailing (.register ⟨0⟩ ⟨2⟩) fault store' hfailed
  have hitem : item ⟨0⟩ "b" store = .ok ⟨0⟩ store := by
    apply hviews.item_latest
    rw [hentries]
    decide
  refine ⟨hentries, ⟨s, hviews⟩, hitem, ?_, ?_, ?_, fault, store', s', hfailed, hviews'⟩
  · apply hviews.item_missing
    rw [hentries]
    decide
  · exact hviews.member_table (by decide) hitem
  · exact hviews.member_own (by decide)

end KeyedRelations.Store
