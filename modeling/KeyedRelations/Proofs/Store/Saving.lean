import KeyedRelations.Proofs.Files.Effects
import KeyedRelations.Proofs.Store.Offers
import KeyedRelations.Store.Snapshots

/-!
# Saving into any tree of files

Whatever stands around the directory of a session, saving either leaves the whole snapshot in its place
and no draft beside it, or fails and leaves every file but the draft as it was. It puts a failure
down to the snapshot if it can clean up after itself. If the draft cannot be deleted, because its path
leads to a directory or cannot be followed, the fault of that is all there is.
-/

namespace KeyedRelations.Store

open FileTree

variable {store : Store} {id : SessionId} {s : Session} {t : Table} {directory path : Path}
  {tree files files' : FileTree} {room : MsgPack.Room}

/-! ## The paths of a snapshot -/

theorem parts_snapshotPath (directory : Path) (name : String) :
    ∃ front last, (snapshotPath directory name).parts = front ++ [last ++ ".dbf"] := by
  have hmark : '/' ∉ ".dbf".toList := by decide
  obtain ⟨front, last, -, hnames⟩ := Path.exists_splitNames hmark (by decide) name
  unfold snapshotPath Path.join Path.ofString
  rw [hnames]
  split_ifs
  · exact ⟨_, _, (List.append_assoc _ _ _).symm⟩
  · exact ⟨_, _, rfl⟩

theorem parts_draftPath {front : List String} {last : String} (h : path.parts = front ++ [last]) :
    (draftPath path).parts = front ++ [last ++ ".tmp"] := by
  unfold draftPath Path.withSuffix
  rw [h, List.dropLast_concat, List.getLast?_concat]
  rfl

theorem exists_locations (directory : Path) (name : String) :
    ∃ above last, (snapshotPath directory name).location = above ++ [last ++ ".dbf"] ∧
      (draftPath (snapshotPath directory name)).location = above ++ [last ++ ".dbf" ++ ".tmp"] := by
  obtain ⟨front, last, hparts⟩ := parts_snapshotPath directory name
  refine ⟨front.foldl Path.descend [], last, ?_, ?_⟩
  · exact Path.location_concat hparts (Path.append_ne (by decide) _ (by decide))
  · exact Path.location_concat (parts_draftPath hparts) (Path.append_ne (by decide) _ (by decide))

/-- No draft is in the place of a snapshot. -/
theorem location_draftPath_ne (directory other : Path) (name named : String) :
    (draftPath (snapshotPath directory name)).location ≠ (snapshotPath other named).location := by
  obtain ⟨above, last, -, hdraft⟩ := exists_locations directory name
  obtain ⟨above', last', hplace, -⟩ := exists_locations other named
  rw [hdraft, hplace]
  intro heq
  have hnames : last ++ ".dbf" ++ ".tmp" = last' ++ ".dbf" :=
    List.singleton_inj.1 (List.append_inj' heq rfl).2
  have hends := congrArg (fun name => name.toList.getLast?) hnames
  simp at hends

theorem hasNul_of_parent (h : path.parent.hasNul = true) : path.hasNul = true := by
  unfold Path.hasNul Path.parent at h
  obtain ⟨name, hname, hnul⟩ := List.any_eq_true.1 h
  exact List.any_eq_true.2 ⟨name, List.dropLast_subset _ hname, hnul⟩

theorem hasNul_draftPath (path : Path) : (draftPath path).hasNul = path.hasNul := by
  rcases List.eq_nil_or_concat path.parts with hparts | ⟨front, last, hparts⟩
  · simp [draftPath, Path.withSuffix, Path.hasNul, hparts]
  · unfold Path.hasNul
    rw [parts_draftPath (by simpa using hparts), hparts]
    simp

/-! ## Writing a snapshot -/

/-- The ways in which writing a snapshot can end. -/
inductive Writing (room : MsgPack.Room) (path : Path) (snapshot : Snapshot) (tree : FileTree) :
    EStateM.Result Fault FileTree Unit → Prop
  /-- There is no draft. -/
  | prepared {made : FileTree} {fault : Fault} (grown : Grown tree made)
    (cause : fault.OfPath path ∨ Recordable.encode room snapshot = .error fault) :
    Writing room path snapshot tree (.error fault made)
  /-- The draft cannot be moved. -/
  | drafted {made : FileTree} {bytes : MsgPack.Bytes} {draft : Location} {found : Option FileNode}
    {fault : Fault} (grown : Grown tree made)
    (hdraft : made.locate (draftPath path) = .ok (draft, found)) (hfound : found ≠ some .directory)
    (cause : ∃ cause, fault = .file cause) :
    Writing room path snapshot tree (.error fault (made.put draft (.file bytes)))
  | moved {made : FileTree} {bytes : MsgPack.Bytes} {draft place : Location}
    {found other : Option FileNode} (grown : Grown tree made)
    (hbytes : Recordable.encode room snapshot = .ok bytes)
    (hdraft : made.locate (draftPath path) = .ok (draft, found)) (hfound : found ≠ some .directory)
    (hplace : (made.put draft (.file bytes)).locate path = .ok (place, other))
    (hother : other ≠ some .directory) :
    Writing room path snapshot tree
      (.ok () (((made.put draft (.file bytes)).remove draft).put place (.file bytes)))

theorem writing_writeSnapshot (room : MsgPack.Room) (path : Path) (snapshot : Snapshot)
    (tree : FileTree) : Writing room path snapshot tree (writeSnapshot room path snapshot tree) := by
  have hmade := FileAction.grows_ensureDirectories path.parent tree
  unfold writeSnapshot
  simp only [bind, EStateM.bind]
  generalize FileAction.ensureDirectories path.parent tree = outcome at hmade ⊢
  cases outcome with
  | error fault made => exact .prepared hmade.1 (.inl (hmade.2.mono hasNul_of_parent))
  | ok _ made =>
    dsimp only at hmade ⊢
    cases hbytes : Recordable.encode room snapshot with
    | error fault => exact .prepared hmade (.inr hbytes)
    | ok bytes =>
      dsimp only [EStateM.bind]
      rcases FileAction.write_cases (draftPath path) bytes made with
        ⟨fault, hwrite, hfault⟩ | ⟨draft, found, hdraft, hfound, hwrite⟩
      · rw [hwrite]
        exact .prepared hmade (.inl (hfault.mono (hasNul_draftPath path).symm.trans))
      · rw [hwrite]
        dsimp only
        rcases FileAction.move_cases (locate_put hdraft hfound bytes) path with
          ⟨fault, hmove, hfault⟩ | ⟨place, other, hplace, hother, hmove⟩
        · rw [hmove]
          -- Where a draft can be written, there is no NUL.
          refine .drafted hmade hdraft hfound (hfault.resolve_right fun hnul => ?_)
          rw [locate_of_hasNul ((hasNul_draftPath path).trans hnul.2)] at hdraft
          cases hdraft
        · rw [hmove]
          exact .moved hmade hbytes hdraft hfound hplace hother

/-! ## What saving leaves -/

/-- Whether the snapshot of a table is in its place, and nothing has changed but it and its draft. -/
structure Saved (room : MsgPack.Room) (t : Table) (path : Path) (files files' : FileTree) :
    Prop where
  snapshot : ∃ bytes, Recordable.encode room t.toSnapshot = .ok bytes ∧
    files'.locate path = .ok (path.location, some (.file bytes))
  draft : files'.locate (draftPath path) = .ok ((draftPath path).location, none)
  data?_eq : ∀ location, location ≠ path.location → location ≠ (draftPath path).location →
    files'.data? location = files.data? location
  directories : DirectoriesStay files files'

/-- Whether nothing has changed but the draft of a snapshot. -/
structure OnlyDraft (path : Path) (files files' : FileTree) : Prop where
  directories : DirectoriesStay files files'
  data?_eq : ∀ location, location ≠ (draftPath path).location →
    files'.data? location = files.data? location

/-- Whether nothing has changed but the draft, which is as it was or gone. -/
structure Unsaved (path : Path) (files files' : FileTree) : Prop extends
    OnlyDraft path files files' where
  snapshot : ∀ place data, files.locate path = .ok (place, some (.file data)) →
    files'.locate path = .ok (place, some (.file data))
  draft : files'.data? (draftPath path).location = none ∨
    files'.data? (draftPath path).location = files.data? (draftPath path).location

/-- The faults with which saving a table can fail, by what is left. -/
inductive NotSaved (room : MsgPack.Room) (t : Table) (path : Path) (files' : FileTree) :
    Fault → Prop
  | reported (hdraft : files'.locate (draftPath path) = .error (.file .notFound) ∨
      ∃ place, files'.locate (draftPath path) = .ok (place, none)) :
    NotSaved room t path files' (.snapshot (.unwritable t.name path.text))
  | directory {place : Location}
    (hdraft : files'.locate (draftPath path) = .ok (place, some .directory)) :
    NotSaved room t path files' (.file .isADirectory)
  | unreachable {fault : Fault} (hdraft : files'.locate (draftPath path) = .error fault)
    (hfault : fault ≠ .file .notFound) : NotSaved room t path files' fault
  | document {fault : Fault} (hencode : Recordable.encode room t.toSnapshot = .error fault) :
    NotSaved room t path files' fault

theorem OnlyDraft.unsaved (hpath : path.location ≠ (draftPath path).location)
    (h : OnlyDraft path files files')
    (hdraft : files'.data? (draftPath path).location = none ∨
      files'.data? (draftPath path).location = files.data? (draftPath path).location) :
    Unsaved path files files' where
  toOnlyDraft := h
  snapshot place data hfile := by
    obtain ⟨hlocate, -, hnode⟩ := h.directories.locate hfile (by simp)
    obtain rfl := place_of_locate hfile
    have hsame := h.data?_eq path.location hpath
    rw [data?_eq_some.2 hnode.symm] at hsame
    rw [hlocate, data?_eq_some.1 hsame]
  draft := hdraft

theorem onlyDraft_of_grown (h : Grown files files') : OnlyDraft path files files' :=
  ⟨h.directories, fun location _ => h.data?_eq location⟩

theorem OnlyDraft.put {place : Location} {found : Option FileNode} (h : OnlyDraft path files tree)
    (hdraft : tree.locate (draftPath path) = .ok (place, found)) (hfound : found ≠ some .directory)
    (data : MsgPack.Bytes) : OnlyDraft path files (tree.put place (.file data)) := by
  obtain ⟨-, -, hnode⟩ := (directoriesStay_refl tree).locate hdraft hfound
  obtain rfl := place_of_locate hdraft
  have hstay := directoriesStay_put (hnode ▸ hfound) (.file data)
  refine ⟨h.directories.trans hstay, fun location hne => ?_⟩
  exact (data?_congr (node?_put_of_ne hne)).trans (h.data?_eq location hne)

/-- A draft that is deleted leaves nothing behind. -/
theorem OnlyDraft.remove {place : Location} {data : MsgPack.Bytes}
    (hpath : path.location ≠ (draftPath path).location) (h : OnlyDraft path files tree)
    (hdraft : tree.locate (draftPath path) = .ok (place, some (.file data))) :
    Unsaved path files (tree.remove place) ∧
      (tree.remove place).locate (draftPath path) = .ok (place, none) := by
  have hfile : (some (.file data) : Option FileNode) ≠ some .directory := by simp
  obtain ⟨-, hplace, hnode⟩ := (directoriesStay_refl tree).locate hdraft hfile
  have hstay : DirectoriesStay tree (tree.remove place) := directoriesStay_remove (hnode ▸ hfile)
  obtain ⟨hlocate, -, -⟩ := hstay.locate hdraft hfile
  rw [node?_remove_self hplace] at hlocate
  obtain rfl := place_of_locate hdraft
  have honly : OnlyDraft path files (tree.remove (draftPath path).location) := by
    refine ⟨h.directories.trans hstay, fun location hne => ?_⟩
    exact (data?_congr (node?_remove_of_ne hne)).trans (h.data?_eq location hne)
  exact ⟨honly.unsaved hpath (.inl (data?_eq_none (by simp [node?_remove_self hplace]))), hlocate⟩

/-- Cleaning up after a failure. -/
theorem unsaved_delete (room : MsgPack.Room) (t : Table)
    (hpath : path.location ≠ (draftPath path).location)
    (h : OnlyDraft path files tree)
    (hleft : tree.data? (draftPath path).location = files.data? (draftPath path).location ∨
      ∃ place data, tree.locate (draftPath path) = .ok (place, some (.file data))) :
    match FileAction.delete (draftPath path) tree with
    | .ok _ files' => Unsaved path files files' ∧
        NotSaved room t path files' (.snapshot (.unwritable t.name path.text))
    | .error fault files' => Unsaved path files files' ∧ NotSaved room t path files' fault := by
  have hkept (hnone : ∀ place data,
      tree.locate (draftPath path) ≠ .ok (place, some (.file data))) : Unsaved path files tree := by
    rcases hleft with hsame | ⟨place, data, hdraft⟩
    · exact h.unsaved hpath (.inr hsame)
    · exact absurd hdraft (hnone place data)
  rcases FileAction.delete_cases (draftPath path) tree with
    ⟨place, data, hdraft, hdelete⟩ | ⟨hmissing, hdelete⟩ | ⟨⟨place, hdraft⟩, hdelete⟩ |
      ⟨fault, hdraft, hfault, hdelete⟩
  · rw [hdelete]
    obtain ⟨hunsaved, hgone⟩ := h.remove hpath hdraft
    exact ⟨hunsaved, .reported (.inr ⟨place, hgone⟩)⟩
  · rw [hdelete]
    refine ⟨hkept ?_, .reported hmissing⟩
    rcases hmissing with hmissing | ⟨place, hmissing⟩ <;> simp [hmissing]
  · rw [hdelete]
    exact ⟨hkept (by simp [hdraft]), .directory hdraft⟩
  · rw [hdelete]
    exact ⟨hkept (by simp [hdraft]), .unreachable hdraft hfault⟩

/-- A draft that has been moved leaves the snapshot in its place. -/
theorem OnlyDraft.saved {place : Location} {bytes : MsgPack.Bytes} {other : Option FileNode}
    (hpath : path.location ≠ (draftPath path).location) (h : OnlyDraft path files tree)
    (hbytes : Recordable.encode room t.toSnapshot = .ok bytes)
    (hdraft : tree.locate (draftPath path) = .ok (place, some (.file bytes)))
    (hplace : tree.locate path = .ok (path.location, other)) (hother : other ≠ some .directory) :
    Saved room t path files ((tree.remove place).put path.location (.file bytes)) := by
  have hfile : (some (.file bytes) : Option FileNode) ≠ some .directory := by simp
  obtain ⟨-, hdraftPlace, hdraftNode⟩ := (directoriesStay_refl tree).locate hdraft hfile
  obtain ⟨-, hpathPlace, hpathNode⟩ := (directoriesStay_refl tree).locate hplace hother
  have hstay : DirectoriesStay tree ((tree.remove place).put path.location (.file bytes)) :=
    directoriesStay_move (hdraftNode ▸ hfile) (hpathNode ▸ hother) _
  obtain ⟨hsnapshot, -, -⟩ := hstay.locate hplace hother
  obtain ⟨hgone, -, -⟩ := hstay.locate hdraft hfile
  obtain rfl := place_of_locate hdraft
  rw [node?_put_self hpathPlace] at hsnapshot
  rw [node?_put_of_ne hpath.symm, node?_remove_self hdraftPlace] at hgone
  refine ⟨⟨bytes, hbytes, hsnapshot⟩, hgone, fun location hne hneDraft => ?_,
    h.directories.trans hstay⟩
  rw [data?_congr (node?_put_of_ne hne), data?_congr (node?_remove_of_ne hneDraft)]
  exact h.data?_eq location hneDraft

/-! ## Saving -/

theorem saveIn_written
    (h : writeSnapshot store.settings.room (snapshotPath directory t.name) t.toSnapshot store.files = .ok () files) :
    ∃ trace, saveIn directory t store =
      .ok (snapshotPath directory t.name) { store with files, trace } := by
  simp only [saveIn, room_eq, bind, EStateM.bind, tryCatch, tryCatchThe, MonadExceptOf.tryCatch,
    EStateM.tryCatch, onFiles, h]
  exact ⟨_, rfl⟩

theorem saveIn_cleaned {cause : FileFault}
    (h : writeSnapshot store.settings.room (snapshotPath directory t.name) t.toSnapshot store.files =
      .error (.file cause) tree) :
    saveIn directory t store =
      match FileAction.delete (draftPath (snapshotPath directory t.name)) tree with
      | .ok _ files =>
        .error (.snapshot (.unwritable t.name (snapshotPath directory t.name).text))
          { store with files }
      | .error fault files => .error fault { store with files } := by
  simp only [saveIn, room_eq, bind, EStateM.bind, tryCatch, tryCatchThe, MonadExceptOf.tryCatch,
    EStateM.tryCatch, onFiles, h, EStateM.Backtrackable.restore, EStateM.dummyRestore]
  cases FileAction.delete (draftPath (snapshotPath directory t.name)) tree <;> rfl

theorem saveIn_passed {fault : Fault} (hfault : ∀ cause, fault ≠ .file cause)
    (h : writeSnapshot store.settings.room (snapshotPath directory t.name) t.toSnapshot store.files =
      .error fault tree) :
    saveIn directory t store = .error fault { store with files := tree } := by
  simp only [saveIn, room_eq, bind, EStateM.bind, tryCatch, tryCatchThe, MonadExceptOf.tryCatch,
    EStateM.tryCatch, onFiles, h]
  cases fault with
  | file cause => exact absurd rfl (hfault cause)
  | _ => rfl

/-- A failure before the snapshot is in its place. -/
theorem saveIn_failed {fault : Fault}
    (h : writeSnapshot store.settings.room (snapshotPath directory t.name) t.toSnapshot store.files =
      .error fault tree)
    (honly : OnlyDraft (snapshotPath directory t.name) store.files tree)
    (hleft : tree.data? (draftPath (snapshotPath directory t.name)).location =
        store.files.data? (draftPath (snapshotPath directory t.name)).location ∨
      (∃ cause, fault = .file cause) ∧ ∃ place data,
        tree.locate (draftPath (snapshotPath directory t.name)) = .ok (place, some (.file data)))
    (hcause : fault.OfPath (snapshotPath directory t.name) ∨
      Recordable.encode store.settings.room t.toSnapshot = .error fault) :
    ∃ fault files, saveIn directory t store = .error fault { store with files } ∧
      Unsaved (snapshotPath directory t.name) store.files files ∧
      NotSaved store.settings.room t (snapshotPath directory t.name) files fault := by
  have hpath := (location_draftPath_ne directory directory t.name t.name).symm
  -- Nothing is cleaned up after any other fault, but then no draft has been written.
  by_cases hfile : ∃ cause, fault = .file cause
  · obtain ⟨cause, rfl⟩ := hfile
    have hend := unsaved_delete store.settings.room t hpath honly (hleft.imp_right And.right)
    rw [saveIn_cleaned h]
    generalize FileAction.delete (draftPath (snapshotPath directory t.name)) tree = deleted at hend ⊢
    cases deleted with
    | ok _ files => exact ⟨_, files, rfl, hend⟩
    | error fault files => exact ⟨fault, files, rfl, hend⟩
  · have hkept := honly.unsaved hpath (.inr (hleft.resolve_right fun hleft => hfile hleft.1))
    refine ⟨fault, tree, saveIn_passed (fun cause heq => hfile ⟨cause, heq⟩) h, hkept, ?_⟩
    rcases hcause with (⟨cause, rfl⟩ | ⟨rfl, hnul⟩) | hencode
    · exact absurd ⟨cause, rfl⟩ hfile
    · exact .unreachable (locate_of_hasNul ((hasNul_draftPath _).trans hnul)) nofun
    · exact .document hencode

theorem saveIn_outcome (directory : Path) (t : Table) (store : Store) :
    match saveIn directory t store with
    | .ok answer after => answer = snapshotPath directory t.name ∧
        ∃ files trace, after = { store with files, trace } ∧
          Saved store.settings.room t (snapshotPath directory t.name) store.files files
    | .error fault after => ∃ files, after = { store with files } ∧
        Unsaved (snapshotPath directory t.name) store.files files ∧
        NotSaved store.settings.room t (snapshotPath directory t.name) files fault := by
  have hpath := (location_draftPath_ne directory directory t.name t.name).symm
  have hwriting := writing_writeSnapshot store.settings.room (snapshotPath directory t.name)
    t.toSnapshot store.files
  generalize hwrite : writeSnapshot store.settings.room (snapshotPath directory t.name) t.toSnapshot
    store.files = written at hwriting
  cases hwriting with
  | prepared grown cause =>
    obtain ⟨fault, files, hsave, hend⟩ :=
      saveIn_failed hwrite (onlyDraft_of_grown grown) (.inl (grown.data?_eq _)) cause
    rw [hsave]
    exact ⟨files, rfl, hend⟩
  | drafted grown hdraft hfound cause =>
    obtain ⟨fault, files, hsave, hend⟩ := saveIn_failed hwrite
      ((onlyDraft_of_grown grown).put hdraft hfound _) (.inr ⟨cause, _, _, locate_put hdraft hfound _⟩)
      (.inl (.inl cause))
    rw [hsave]
    exact ⟨files, rfl, hend⟩
  | moved grown hbytes hdraft hfound hplace hother =>
    obtain ⟨trace, hsave⟩ := saveIn_written hwrite
    rw [hsave]
    obtain rfl := place_of_locate hplace
    refine ⟨rfl, _, trace, rfl, ?_⟩
    exact ((onlyDraft_of_grown grown).put hdraft hfound _).saved hpath hbytes
      (locate_put hdraft hfound _) hplace hother

theorem saved_of_saveTable {tid : TableId} {store' : Store}
    (hs : store.sessions[id.number]? = some s) (ht : store.tables[tid.number]? = some t)
    (h : saveTable id tid store = .ok path store') :
    path = snapshotPath s.directory t.name ∧ Saved store.settings.room t path store.files store'.files := by
  have houtcome := saveIn_outcome s.directory t store
  unfold saveTable at h
  rw [bind_ok (session_ok hs), bind_ok (table_ok ht)] at h
  rw [h] at houtcome
  obtain ⟨rfl, files, trace, rfl, hsaved⟩ := houtcome
  exact ⟨rfl, hsaved⟩

/-- Whatever stands in the way, saving a table leaves all tables and sessions alone. Either the file at
the path it answers holds the whole snapshot and no draft is left, or it fails, the file that was there
stays, and no new draft is left. -/
theorem saveTable_outcome {tid : TableId} (hs : store.sessions[id.number]? = some s)
    (ht : store.tables[tid.number]? = some t) :
    match saveTable id tid store with
    | .ok answer after => answer = snapshotPath s.directory t.name ∧
        ∃ files trace, after = { store with files, trace } ∧
          Saved store.settings.room t (snapshotPath s.directory t.name) store.files files
    | .error fault after => ∃ files, after = { store with files } ∧
        Unsaved (snapshotPath s.directory t.name) store.files files ∧
        NotSaved store.settings.room t (snapshotPath s.directory t.name) files fault := by
  unfold saveTable
  rw [bind_ok (session_ok hs), bind_ok (table_ok ht)]
  exact saveIn_outcome s.directory t store

/-- A store with one table and the given nodes. -/
def withNodes (nodes : List (Location × FileNode)) : Store :=
  { withTable (keyColumn .integer64) with files := ⟨nodes⟩ }

/-- A directory in the place of a snapshot makes saving fail and remove a draft that was there. -/
theorem saveTable_outcome_taken :
    let store := withNodes [(["t.dbf"], .directory), (["t.dbf.tmp"], .file [])]
    ∃ files, saveTable ⟨0⟩ ⟨0⟩ store =
        .error (.snapshot (.unwritable "t" "/t.dbf")) { store with files } ∧
      files.data? ["t.dbf.tmp"] = none ∧
      NotSaved store.settings.room (Table.empty ⟨0⟩ "t" (keyColumn .integer64)) ⟨"/", ["t.dbf"]⟩ files
        (.snapshot (.unwritable "t" "/t.dbf")) := by
  intro store
  have hs : store.sessions[(⟨0⟩ : SessionId).number]? = some ⟨⟨"/", []⟩, 0, []⟩ := rfl
  have ht : store.tables[(⟨0⟩ : TableId).number]? =
      some (Table.empty ⟨0⟩ "t" (keyColumn .integer64)) := rfl
  obtain ⟨files, hsave, hdraft⟩ : ∃ files, saveTable ⟨0⟩ ⟨0⟩ store =
      .error (.snapshot (.unwritable "t" "/t.dbf")) { store with files } ∧
      files.data? ["t.dbf.tmp"] = none := ⟨_, rfl, rfl⟩
  have houtcome := saveTable_outcome hs ht
  rw [hsave] at houtcome
  obtain ⟨files', hfiles, -, hfault⟩ := houtcome
  obtain rfl := congrArg Store.files hfiles
  exact ⟨_, hsave, hdraft, hfault⟩

/-- A directory in the place of the draft makes saving fail for another reason than the snapshot. -/
theorem saveTable_draft_taken :
    let store := withNodes [(["t.dbf.tmp"], .directory)]
    saveTable ⟨0⟩ ⟨0⟩ store = .error (.file .isADirectory) store ∧
      ∀ cause, Fault.file .isADirectory ≠ .snapshot cause :=
  ⟨rfl, nofun⟩

end KeyedRelations.Store
