import KeyedRelations.Proofs.MsgPack.Refusals
import KeyedRelations.Proofs.Store.Snapshots

/-!
# Loading whatever stands at a path

Whatever stands where a snapshot is looked for, loading either makes one table and registers it, or
fails and leaves tables, sessions and files as they were. It puts most failures down to the snapshot.
Those of a path with a NUL in it, of a text that is not UTF-8, of too many levels and of an instant
out of reach it passes on as they are.
-/

namespace KeyedRelations.Store

variable {store : Store} {id : SessionId} {s : Session} {directory : Path} {name : String}

/-- The faults that loading does not put down to the snapshot. -/
inductive PassedOn (room : MsgPack.Room) (files : FileTree) (path : Path) : Fault → Prop
  | nul (hpath : path.hasNul = true) : PassedOn room files path .embeddedNul
  | document {place : Location} {bytes : MsgPack.Bytes} {fault : Fault}
    (hfile : files.locate path = .ok (place, some (.file bytes)))
    (hdecode : Recordable.decode Snapshot room bytes = .error fault)
    (hcause : fault = .document .invalidText ∨ fault = .nesting ∨ ∃ year, fault = .farYear year) :
    PassedOn room files path fault

theorem PassedOn.not_snapshot {room : MsgPack.Room} {files : FileTree} {path : Path} {fault : Fault}
    (h : PassedOn room files path fault) (cause : SnapshotFault) : fault ≠ .snapshot cause := by
  cases h with
  | nul => exact nofun
  | document _ _ hcause => rcases hcause with rfl | rfl | ⟨year, rfl⟩ <;> exact nofun

/-! ## Reading -/

theorem readSnapshot_unreadable {cause : FileFault}
    (h : FileAction.contents (snapshotPath directory name) store.files =
      .error (.file cause) store.files) :
    readSnapshot directory name store =
      .error (.snapshot (.unreadable (snapshotPath directory name).text)) store := by
  simp only [readSnapshot, bind, EStateM.bind, tryCatch, tryCatchThe, MonadExceptOf.tryCatch,
    EStateM.tryCatch, onFiles, h]
  rfl

theorem readSnapshot_nul
    (h : FileAction.contents (snapshotPath directory name) store.files =
      .error .embeddedNul store.files) :
    readSnapshot directory name store = .error .embeddedNul store := by
  simp only [readSnapshot, bind, EStateM.bind, tryCatch, tryCatchThe, MonadExceptOf.tryCatch,
    EStateM.tryCatch, onFiles, h]
  rfl

/-- A file whose document is refused is read no further. -/
theorem readSnapshot_refused {bytes : MsgPack.Bytes} {fault : Fault}
    (h : FileAction.contents (snapshotPath directory name) store.files = .ok bytes store.files)
    (hdecode : Recordable.decode Snapshot store.settings.room bytes = .error fault) :
    readSnapshot directory name store =
      .error (if fault matches .document .malformed | .document .illTyped then
        .snapshot (.corrupt (snapshotPath directory name).text) else fault) store := by
  simp only [readSnapshot, bind, EStateM.bind, tryCatch, tryCatchThe, MonadExceptOf.tryCatch,
    EStateM.tryCatch, onFiles, h, room_eq, hdecode]
  cases Snapshot.ofDocument_decode hdecode with
  | document cause => cases cause <;> rfl
  | nesting => rfl
  | farYear year => rfl

theorem readSnapshot_cases (directory : Path) (name : String) (store : Store) :
    (∃ snapshot trace, readSnapshot directory name store = .ok snapshot { store with trace }) ∨
    ∃ fault, readSnapshot directory name store = .error fault store ∧
      ((∃ cause, fault = .snapshot cause) ∨
        PassedOn store.settings.room store.files (snapshotPath directory name) fault) := by
  rcases FileAction.contents_cases (snapshotPath directory name) store.files with
    ⟨place, bytes, hfile, hcontents⟩ | ⟨cause, hcontents⟩ | ⟨hnul, hcontents⟩
  · cases hdecode : Recordable.decode Snapshot store.settings.room bytes with
    | ok snapshot =>
      obtain ⟨trace, hread⟩ := readSnapshot_ok hfile hdecode
      exact .inl ⟨snapshot, trace, hread⟩
    | error fault =>
      refine .inr ⟨_, readSnapshot_refused hcontents hdecode, ?_⟩
      cases Snapshot.ofDocument_decode hdecode with
      | document cause =>
        cases cause with
        | malformed => exact .inl ⟨_, rfl⟩
        | illTyped => exact .inl ⟨_, rfl⟩
        | invalidText => exact .inr (.document hfile hdecode (.inl rfl))
      | nesting => exact .inr (.document hfile hdecode (.inr (.inl rfl)))
      | farYear year => exact .inr (.document hfile hdecode (.inr (.inr ⟨year, rfl⟩)))
  · exact .inr ⟨_, readSnapshot_unreadable hcontents, .inl ⟨_, rfl⟩⟩
  · exact .inr ⟨_, readSnapshot_nul hcontents, .inr (.nul hnul)⟩

theorem PassedOn.readSnapshot {fault : Fault}
    (h : PassedOn store.settings.room store.files (snapshotPath directory name) fault) :
    readSnapshot directory name store = .error fault store := by
  cases h with
  | nul hpath => exact readSnapshot_nul (FileAction.contents_error (FileTree.locate_of_hasNul hpath))
  | document hfile hdecode hcause =>
    rw [readSnapshot_refused (FileAction.contents_ok hfile) hdecode]
    rcases hcause with rfl | rfl | ⟨year, rfl⟩ <;> rfl

/-! ## Loading -/

theorem load_error (hs : store.sessions[id.number]? = some s) {fault : Fault}
    (hread : readSnapshot s.directory name store = .error fault store) :
    load id name store = .error fault store := by
  unfold load
  rw [bind_ok (session_ok hs)]
  simp only [bind, EStateM.bind, hread]

/-- A snapshot that has been read is loaded and registered, or put down as invalid. -/
theorem load_of_readSnapshot (hs : store.sessions[id.number]? = some s) {snapshot : Snapshot}
    {trace : List Trace.Entry}
    (hread : readSnapshot s.directory name store = .ok snapshot { store with trace }) :
    (∃ t trace, t.session = id ∧ load id name store = .ok ⟨store.tables.length⟩
      { store with
        tables := store.tables ++ [t]
        sessions := store.sessions.set id.number
          { s with registry := s.registry.enter t.name ⟨store.tables.length⟩ }
        trace }) ∨
    ∃ reason, load id name store =
      .error (.snapshot (.invalid name reason)) { store with trace } := by
  have hstart : load id name store = _ :=
    (bind_ok (session_ok hs) _).trans (bind_ok hread _)
  rw [hstart]
  cases hsnapshot : Table.ofSnapshot id snapshot with
  | error fault =>
    rcases Table.error_ofSnapshot hsnapshot with ⟨cause, rfl⟩ | ⟨cause, rfl⟩
    · exact .inr ⟨_, rfl⟩
    · exact .inr ⟨_, rfl⟩
  | ok t =>
    have hown := Table.session_ofSnapshot hsnapshot
    let grown : Store := { store with tables := store.tables ++ [t], trace }
    have hmade : addTable t { store with trace } = .ok ⟨store.tables.length⟩ grown := rfl
    have htable : grown.tables[store.tables.length]? = some t := List.getElem?_concat_length
    have hregister : ∃ trace', register id ⟨store.tables.length⟩ grown = .ok () _ :=
      register_ok htable hown hs
    obtain ⟨trace', hregister⟩ := hregister
    refine .inl ⟨t, trace', hown, ?_⟩
    dsimp only
    rw [bind_ok hmade, bind_ok hregister]
    rfl

/-- Whatever a session looks for and whatever stands there, loading adds one table and registers it
under its name, or it fails and leaves everything but the trace as it was. It fails for the
snapshot's sake, apart from the faults that it passes on, and those it always passes on. -/
theorem load_outcome (hs : store.sessions[id.number]? = some s) (name : String) :
    (match load id name store with
    | .ok tid after => ∃ t trace, t.session = id ∧ tid = ⟨store.tables.length⟩ ∧
        after = { store with
          tables := store.tables ++ [t]
          sessions := store.sessions.set id.number { s with registry := s.registry.enter t.name tid }
          trace }
    | .error fault after => (∃ trace, after = { store with trace }) ∧
        ((∃ cause, fault = .snapshot cause) ∨
          PassedOn store.settings.room store.files (snapshotPath s.directory name) fault)) ∧
    ∀ fault, PassedOn store.settings.room store.files (snapshotPath s.directory name) fault →
      load id name store = .error fault store ∧ ∀ cause, fault ≠ .snapshot cause := by
  refine ⟨?_, fun fault hfault => ⟨load_error hs hfault.readSnapshot, hfault.not_snapshot⟩⟩
  rcases readSnapshot_cases s.directory name store with ⟨snapshot, trace, hread⟩ | ⟨fault, hread, hfault⟩
  · rcases load_of_readSnapshot hs hread with ⟨t, trace', hown, hload⟩ | ⟨reason, hload⟩
    · rw [hload]
      exact ⟨t, trace', hown, rfl, rfl⟩
    · rw [hload]
      exact ⟨⟨trace, rfl⟩, .inl ⟨_, rfl⟩⟩
  · rw [load_error hs hread]
    exact ⟨⟨store.trace, rfl⟩, hfault⟩

/-- A store with one session and one file in its directory. -/
def withFile (bytes : MsgPack.Bytes) : Store where
  settings := bareSettings
  tables := []
  sessions := [⟨⟨"/", []⟩, 0, []⟩]
  files := ⟨[(["t.dbf"], .file bytes)]⟩
  trace := []

/-- The document of a snapshot of the given name and key that has one column `k` and no rows. -/
def document (name key : MsgPack.Bytes) : MsgPack.Bytes :=
  [0x83, 0xa4, 0x6e, 0x61, 0x6d, 0x65] ++ name ++
    [0xa6, 0x73, 0x63, 0x68, 0x65, 0x6d, 0x61, 0x82, 0xa7, 0x63, 0x6f, 0x6c, 0x75, 0x6d, 0x6e, 0x73,
      0x91, 0x82, 0xa4, 0x6e, 0x61, 0x6d, 0x65, 0xa1, 0x6b, 0xa6, 0x64, 0x6f, 0x6d, 0x61, 0x69, 0x6e,
      0xa3, 0x69, 0x36, 0x34, 0xa3, 0x6b, 0x65, 0x79, 0x91] ++ key ++
    [0xa4, 0x72, 0x6f, 0x77, 0x73, 0x90]

theorem load_outcome_foreign_key :
    let store := withFile (document [0xa1, 0x74] [0xa1, 0x78])
    ∃ after, load ⟨0⟩ "t" store =
        .error (.snapshot (.invalid "t" "Key attribute(s) x not in schema")) after ∧
      after.tables = store.tables ∧ after.sessions = store.sessions := by
  intro store
  have hs : store.sessions[(⟨0⟩ : SessionId).number]? = some ⟨⟨"/", []⟩, 0, []⟩ := rfl
  have hload : ∃ after, load ⟨0⟩ "t" store =
      .error (.snapshot (.invalid "t" "Key attribute(s) x not in schema")) after := ⟨_, rfl⟩
  obtain ⟨after, hload⟩ := hload
  have houtcome := (load_outcome hs "t").1
  rw [hload] at houtcome
  obtain ⟨⟨trace, rfl⟩, -⟩ := houtcome
  exact ⟨_, hload, rfl, rfl⟩

/-- A text that is not UTF-8 makes loading fail for another reason than the snapshot. -/
theorem load_invalid_text :
    let store := withFile (document [0xa1, 0xff] [0xa1, 0x6b])
    load ⟨0⟩ "t" store = .error (.document .invalidText) store ∧
      ∀ cause, Fault.document .invalidText ≠ .snapshot cause :=
  ⟨rfl, nofun⟩

end KeyedRelations.Store
