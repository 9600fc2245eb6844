import KeyedRelations.Proofs.MsgPack.Snapshots
import KeyedRelations.Proofs.Store.Saving
import KeyedRelations.Proofs.Store.WellTyped
import KeyedRelations.Proofs.Table.Loading

/-!
# Saving and loading again

A table that has been saved can be loaded again under its name, as long as its snapshot stands where
it was written: with its schema, and with the same rows in the same order.
-/

namespace KeyedRelations

namespace Store

variable {store store' : Store} {id : SessionId} {s : Session} {t : Table}

theorem saveTable_eq_ok {tid : TableId} {path : Path} (ht : store.tables[tid.number]? = some t)
    (hs : store.sessions[id.number]? = some s) (h : saveTable id tid store = .ok path store') :
    path = snapshotPath s.directory t.name ∧
      ∃ bytes place, Recordable.encode store.settings.room t.toSnapshot = .ok bytes ∧
        store'.files.locate path = .ok (place, some (.file bytes)) := by
  obtain ⟨hpath, hsaved⟩ := saved_of_saveTable hs ht h
  obtain ⟨bytes, hbytes, hlocate⟩ := hsaved.snapshot
  exact ⟨hpath, bytes, _, hbytes, hlocate⟩

/-! ## Loading -/

theorem readSnapshot_ok {directory : Path} {name : String} {snapshot : Snapshot}
    {bytes : MsgPack.Bytes} {place : Location}
    (hfile : store.files.locate (snapshotPath directory name) = .ok (place, some (.file bytes)))
    (hdecode : Recordable.decode Snapshot store.settings.room bytes = .ok snapshot) :
    ∃ trace, readSnapshot directory name store = .ok snapshot { store with trace } := by
  have hcontents : onFiles (FileAction.contents (snapshotPath directory name)) store =
      .ok bytes store := by
    unfold onFiles
    rw [FileAction.contents_ok hfile]
  have hread : ∀ handle : Fault → Action MsgPack.Bytes,
      tryCatch (onFiles (FileAction.contents (snapshotPath directory name))) handle store =
        .ok bytes store := by
    intro handle
    simp only [tryCatch, tryCatchThe, MonadExceptOf.tryCatch, EStateM.tryCatch, hcontents]
  unfold readSnapshot
  rw [bind_ok (hread _), bind_ok (room_eq store), hdecode]
  exact ⟨_, rfl⟩

variable {room other : MsgPack.Room} {levels : Nat}

theorem stands_toSnapshot (ht : t.toRelation.Sound) (hshort : t.toSnapshot.Short) :
    MsgPack.Stands False (Recordable.record t.toSnapshot) (Recordable.read levels) t.toSnapshot := by
  have hlength : t.schema.domains.length < 0x100000000 := by
    rw [Schema.length_domains]
    exact hshort.schema.columns
  exact stands_fitting ht hlength hshort

/-- The snapshot of a table whose rows fit, if it is written with lengths that heads can hold, is
read back as it was. -/
theorem decode_toSnapshot (ht : t.toRelation.Sound) (hshort : t.toSnapshot.Short)
    {bytes : MsgPack.Bytes} (h : Recordable.encode other t.toSnapshot = .ok bytes) :
    Recordable.decode Snapshot room bytes = .ok t.toSnapshot :=
  MsgPack.decode_encode (stands_toSnapshot ht hshort) h not_false

/-- Under whatever name the document of a table is found, the table is loaded under its own. -/
theorem load_ok (ht : t.toRelation.Sound) (hs : store.sessions[id.number]? = some s)
    (hshort : t.toSnapshot.Short) {bytes : MsgPack.Bytes}
    (hbytes : Recordable.encode other t.toSnapshot = .ok bytes) {name : String} {place : Location}
    (hfile : store.files.locate (snapshotPath s.directory name) =
      .ok (place, some (.file bytes))) :
    ∃ index tid store', load id name store = .ok tid store' ∧
      store'.tables[tid.number]? = some { t with session := id, index } ∧
      (store'.sessions[id.number]?.bind (·.registry.find? t.name)) = some tid := by
  obtain ⟨trace, hread⟩ := readSnapshot_ok hfile (decode_toSnapshot ht hshort hbytes)
  obtain ⟨index, hloaded⟩ := Table.ofSnapshot_toSnapshot ht id
  let loaded : Table := { t with session := id, index }
  let tid : TableId := ⟨store.tables.length⟩
  let grown : Store := { store with tables := store.tables ++ [loaded], trace }
  have hmade : addTable loaded { store with trace } = .ok tid grown := rfl
  have htable : grown.tables[tid.number]? = some loaded := List.getElem?_concat_length
  obtain ⟨trace', hregister⟩ := register_ok htable rfl hs
  let registered : Session := { s with registry := s.registry.enter t.name tid }
  refine ⟨index, tid,
    { grown with sessions := store.sessions.set id.number registered, trace := trace' },
    ?_, htable, ?_⟩
  · unfold load
    rw [bind_ok (session_ok hs), bind_ok hread, hloaded]
    dsimp only
    rw [bind_ok hmade, bind_ok hregister]
    rfl
  · obtain ⟨hlt, -⟩ := List.getElem?_eq_some_iff.1 hs
    dsimp only
    rw [List.getElem?_set_self hlt]
    exact Registry.find?_enter_self _ _ _

/-! ## There and back -/

/-- If a table of any history is saved, then as long as its file stays what it is, every session with
the same directory can load the table. What it loads has the name, the schema and the rows of the
table, and is registered. No text and no list of the table may be too long for its head. -/
theorem load_saveTable {saved later : Store} {id' : SessionId} {s' : Session} {tid : TableId}
    {path : Path} (hstore : Reached store) (ht : store.tables[tid.number]? = some t)
    (hshort : t.toSnapshot.Short) (hs : store.sessions[id.number]? = some s)
    (hsave : saveTable id tid store = .ok path saved)
    (hfile : (later.files.locate path).map (·.2) = (saved.files.locate path).map (·.2))
    (hs' : later.sessions[id'.number]? = some s') (hdirectory : s'.directory = s.directory) :
    ∃ tid' loaded u, load id' t.name later = .ok tid' loaded ∧
      loaded.tables[tid'.number]? = some u ∧ u.name = t.name ∧ u.schema = t.schema ∧
      u.rows = t.rows ∧
      (loaded.sessions[id'.number]?.bind (·.registry.find? t.name)) = some tid' := by
  have hsound := hstore.forall_tables Table.kept_sound t (List.mem_of_getElem? ht)
  obtain ⟨rfl, bytes, place, hbytes, hsaved⟩ := saveTable_eq_ok ht hs hsave
  obtain ⟨place', hplace⟩ : ∃ place', later.files.locate (snapshotPath s'.directory t.name) =
      .ok (place', some (.file bytes)) := by
    rw [hdirectory]
    rw [hsaved] at hfile
    cases hlater : later.files.locate (snapshotPath s.directory t.name) with
    | error fault => simp [hlater, Except.map] at hfile
    | ok found =>
      obtain ⟨place', node?⟩ := found
      simp only [hlater, Except.map, Except.ok.injEq] at hfile
      exact ⟨place', by rw [hfile]⟩
  obtain ⟨index, tid', loaded, hload, htable, hregistered⟩ :=
    load_ok hsound.rows hs' hshort hbytes hplace
  exact ⟨tid', loaded, _, hload, htable, rfl, rfl, rfl, hregistered⟩

def eachKindRows : List Row :=
  [.tuple [.int (-129), .float .quietNaN, .text "é"], .tuple [.int 65536, .float .zero, .text ""]]

/-- A store with a table of two rows. -/
def filledStore : Store :=
  after (perform (.offer ⟨0⟩ (.extend (.ofTable (Table.empty ⟨0⟩ "t" eachKind)) eachKindRows)))
    (withTable eachKind)

theorem reached_filledStore : Reached filledStore := .step (reached_withTable eachKind) _

/-- A table with `NaN` is saved in one session and loaded in another. -/
theorem load_saveTable_each_kind :
    let saved := after (saveTable ⟨0⟩ ⟨0⟩) filledStore
    let later := after (perform (.newSession ⟨"/", []⟩ [])) saved
    saveTable ⟨0⟩ ⟨0⟩ filledStore = .ok ⟨"/", ["t.dbf"]⟩ saved ∧
      ∃ tid loaded u, load ⟨1⟩ "t" later = .ok tid loaded ∧ loaded.tables[tid.number]? = some u ∧
        u.schema = eachKind ∧ u.rows = eachKindRows := by
  intro saved later
  obtain ⟨t, ht, hname, hschema, hrows⟩ :
      ∃ t, filledStore.tables[(⟨0⟩ : TableId).number]? = some t ∧
        t.name = "t" ∧ t.schema = eachKind ∧ t.rows = eachKindRows := by
    refine ⟨_, rfl, ?_⟩
    exact ⟨rfl, rfl, rfl⟩
  have hshort : t.toSnapshot.Short := by
    unfold Table.toSnapshot
    rw [hname, hschema, hrows]
    refine ⟨by decide +kernel, ⟨by decide, ?_, by decide, ?_⟩, by decide, ?_⟩
    · decide +kernel
    · decide +kernel
    · intro row hrow text htext
      simp only [eachKindRows, List.mem_cons, List.not_mem_nil, or_false] at hrow
      rcases hrow with rfl | rfl <;> simp [Row.values] at htext <;> subst htext <;> decide +kernel
  have hs : filledStore.sessions[(⟨0⟩ : SessionId).number]? = some ⟨⟨"/", []⟩, 0, []⟩ := rfl
  have hsave : saveTable ⟨0⟩ ⟨0⟩ filledStore = .ok ⟨"/", ["t.dbf"]⟩ saved := rfl
  have hs' : later.sessions[(⟨1⟩ : SessionId).number]? = some ⟨⟨"/", []⟩, 0, []⟩ := rfl
  have hfiles : later.files = saved.files := rfl
  obtain ⟨tid, loaded, u, hload, hu, -, huschema, hurows, -⟩ :=
    load_saveTable reached_filledStore ht hshort hs hsave (by rw [hfiles]) hs' rfl
  rw [hname] at hload
  exact ⟨hsave, tid, loaded, u, hload, hu, huschema.trans hschema, hurows.trans hrows⟩

end Store

end KeyedRelations
