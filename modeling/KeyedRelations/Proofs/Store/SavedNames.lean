import KeyedRelations.Proofs.Store.Snapshots

/-!
# Snapshots side by side

Tables saved into one directory keep out of each other's way as long as their names have different
places. A snapshot is found under a name if no later one has been saved at the same place, which names
without detours never share. Otherwise the later one is found, and it goes by its own name.
-/

namespace KeyedRelations.Store

open FileTree

variable {store : Store} {id : SessionId} {s : Session} {t w : Table} {directory : Path}
  {log before later : List Table}

/-- A run of calls that leave the files alone, and of saving tables into one directory. The tables are
listed as they were when they were saved, the latest first. -/
inductive SavedIn (directory : Path) : List Table → Store → Prop
  | start {store : Store} (hstore : Reached store) : SavedIn directory [] store
  | save {log : List Table} {store store' : Store} {id : SessionId} {s : Session} {tid : TableId}
    {t : Table} {path : Path} (hlog : SavedIn directory log store)
    (hs : store.sessions[id.number]? = some s) (hdirectory : s.directory = directory)
    (ht : store.tables[tid.number]? = some t) (hsave : saveTable id tid store = .ok path store') :
    SavedIn directory (t :: log) store'
  | other {log : List Table} {store : Store} (hlog : SavedIn directory log store) (call : Call)
    (hfiles : (after (perform call) store).files = store.files) :
    SavedIn directory log (after (perform call) store)

/-- Whether a session that loads a name gets a table like another one, registered under its name. -/
def Loads (id : SessionId) (name : String) (t : Table) (store : Store) : Prop :=
  ∃ tid store' u, load id name store = .ok tid store' ∧ store'.tables[tid.number]? = some u ∧
    u.name = t.name ∧ u.schema = t.schema ∧ u.rows = t.rows ∧
    (store'.sessions[id.number]?.bind (·.registry.find? t.name)) = some tid

/-- Whether a path leads to the snapshot of a table. -/
def Holds (files : FileTree) (path : Path) (t : Table) : Prop :=
  t.toRelation.Sound ∧ ∃ room bytes, Recordable.encode room t.toSnapshot = .ok bytes ∧
    files.locate path = .ok (path.location, some (.file bytes))

theorem SavedIn.reached (h : SavedIn directory log store) : Reached store := by
  induction h with
  | start hstore => exact hstore
  | @save log store store' id s tid t path _ hs hdirectory ht hsave ih =>
    have hstep : after (perform (.saveTable id tid)) store = store' :=
      (after_discard _).trans (after_ok hsave)
    exact hstep ▸ .step ih (.saveTable id tid)
  | other _ call _ ih => exact .step ih call

/-! ## The latest table at a place -/

/-- The latest table saved where a name has its place. -/
def latestAt (directory : Path) (log : List Table) (name : String) : Option Table :=
  log.find? fun u => (snapshotPath directory u.name).location =
    (snapshotPath directory name).location

theorem latestAt_of_exists {name : String} (h : ∃ u ∈ later,
    (snapshotPath directory u.name).location = (snapshotPath directory name).location) :
    ∃ w ∈ later, latestAt directory (later ++ before) name = some w := by
  obtain ⟨u, hu, hplace⟩ := h
  have hsome : (latestAt directory later name).isSome :=
    List.find?_isSome.2 ⟨u, hu, by simpa using hplace⟩
  obtain ⟨w, hw⟩ := Option.isSome_iff_exists.1 hsome
  unfold latestAt at hw ⊢
  rw [List.find?_append, hw]
  exact ⟨w, List.mem_of_find?_eq_some hw, rfl⟩

theorem latestAt_of_forall (h : ∀ u ∈ later,
    (snapshotPath directory u.name).location ≠ (snapshotPath directory t.name).location) :
    latestAt directory (later ++ t :: before) t.name = some t := by
  unfold latestAt
  rw [List.find?_append, List.find?_eq_none.2 fun u hu => by simpa using h u hu, Option.none_or,
    List.find?_cons_of_pos (by simp)]

variable {room : MsgPack.Room}

theorem Saved.holds {path : Path} {files files' : FileTree} (h : Saved room t path files files')
    (ht : t.toRelation.Sound) : Holds files' path t :=
  ⟨ht, room, h.snapshot⟩

/-- What is saved elsewhere stays. -/
theorem Holds.saved_elsewhere {other path : Path} {files files' : FileTree}
    (h : Holds files other w) (hsaved : Saved room t path files files')
    (hplace : other.location ≠ path.location) (hdraft : other.location ≠ (draftPath path).location) :
    Holds files' other w := by
  obtain ⟨hw, enough, bytes, hbytes, hlocate⟩ := h
  obtain ⟨hlocate', -, hnode⟩ := hsaved.directories.locate hlocate (by simp)
  have hsame := hsaved.data?_eq other.location hplace hdraft
  rw [data?_eq_some.2 hnode.symm] at hsame
  rw [data?_eq_some.1 hsame] at hlocate'
  exact ⟨hw, enough, bytes, hbytes, hlocate'⟩

/-- What is saved at the same place is found there instead. -/
theorem Holds.saved_over {other path : Path} {files files' : FileTree} (h : Holds files other w)
    (ht : t.toRelation.Sound) (hsaved : Saved room t path files files')
    (hplace : other.location = path.location) : Holds files' other t := by
  obtain ⟨-, _, _, -, hlocate⟩ := h
  obtain ⟨bytes, hbytes, hsnapshot⟩ := hsaved.snapshot
  obtain ⟨hlocate', -, -⟩ := hsaved.directories.locate hlocate (by simp)
  obtain ⟨-, -, hnode⟩ := (directoriesStay_refl files').locate hsnapshot (by simp)
  rw [hplace, ← hnode, ← hplace] at hlocate'
  exact ⟨ht, room, bytes, hbytes, hlocate'⟩

theorem SavedIn.latest (h : SavedIn directory log store) (ht : t ∈ log) :
    ∃ w, latestAt directory log t.name = some w ∧
      Holds store.files (snapshotPath directory t.name) w := by
  induction h with
  | start => exact absurd ht List.not_mem_nil
  | @save log store store' id s tid u path hlog hs hdirectory hu hsave ih =>
    subst hdirectory
    obtain ⟨rfl, hsaved⟩ := saved_of_saveTable hs hu hsave
    have hsound : u.toRelation.Sound :=
      (hlog.reached.forall_tables Table.kept_sound u (List.mem_of_getElem? hu)).rows
    unfold latestAt
    -- What has just been saved is found wherever its place is asked for, and nowhere else.
    by_cases hplace : (snapshotPath s.directory u.name).location =
        (snapshotPath s.directory t.name).location
    · rw [List.find?_cons_of_pos (by simpa using hplace)]
      refine ⟨u, rfl, ?_⟩
      rcases List.mem_cons.1 ht with rfl | ht
      · exact hsaved.holds hsound
      · obtain ⟨w, -, hw⟩ := ih ht
        exact hw.saved_over hsound hsaved hplace.symm
    · rw [List.find?_cons_of_neg (by simpa using hplace)]
      have hold : t ∈ log := (List.mem_cons.1 ht).resolve_left (by rintro rfl; exact hplace rfl)
      obtain ⟨w, hlatest, hw⟩ := ih hold
      refine ⟨w, hlatest, hw.saved_elsewhere hsaved (Ne.symm hplace) ?_⟩
      exact (location_draftPath_ne _ _ _ _).symm
  | other _ _ hfiles ih =>
    rw [hfiles]
    exact ih ht

/-! ## Loading -/

theorem Holds.loads {name : String} (hs : store.sessions[id.number]? = some s)
    (h : Holds store.files (snapshotPath s.directory name) w) : Loads id name w store := by
  obtain ⟨hw, _, bytes, hbytes, hlocate⟩ := h
  have hshort : w.toSnapshot.Short := Snapshot.short_of_encode hw hbytes
  obtain ⟨index, tid, store', hload, htable, hregistered⟩ := load_ok hw hs hshort hbytes hlocate
  exact ⟨tid, store', _, hload, htable, rfl, rfl, rfl, hregistered⟩

/-- Under the name of a table that has been saved, the latest at its place is loaded. -/
theorem SavedIn.loads_latest (h : SavedIn directory log store) (ht : t ∈ log)
    (hs : store.sessions[id.number]? = some s) (hdirectory : s.directory = directory) :
    ∃ w, latestAt directory log t.name = some w ∧ Loads id t.name w store := by
  subst hdirectory
  obtain ⟨w, hlatest, hw⟩ := h.latest ht
  exact ⟨w, hlatest, hw.loads hs⟩

theorem Loads.name_eq {name : String} (h : Loads id name t store) (hw : Loads id name w store) :
    w.name = t.name := by
  obtain ⟨tid, store', u, hload, hu, hname, -⟩ := h
  obtain ⟨tid', store'', u', hload', hu', hname', -⟩ := hw
  obtain ⟨rfl, rfl⟩ := EStateM.Result.ok.inj (hload.symm.trans hload')
  obtain rfl := Option.some.inj (hu.symm.trans hu')
  exact hname'.symm.trans hname

/-- The last table saved under a name can be loaded under it if and only if no table saved later has
its place, whatever their names are. No two plain names have one place. -/
theorem loads_iff (h : SavedIn directory (later ++ t :: before) store)
    (hlast : ∀ u ∈ later, u.name ≠ t.name) (hs : store.sessions[id.number]? = some s)
    (hdirectory : s.directory = directory) :
    (Loads id t.name t store ↔ ∀ u ∈ later, (snapshotPath directory u.name).location ≠
        (snapshotPath directory t.name).location) ∧
      (Path.IsPlain t.name → (∀ u ∈ later, Path.IsPlain u.name) → Loads id t.name t store) := by
  obtain ⟨w, hlatest, hloads⟩ :=
    h.loads_latest (List.mem_append_right later List.mem_cons_self) hs hdirectory
  have hiff : Loads id t.name t store ↔ ∀ u ∈ later,
      (snapshotPath directory u.name).location ≠ (snapshotPath directory t.name).location := by
    constructor
    · intro ht u hu hplace
      obtain ⟨w', hw', hlater⟩ : ∃ w ∈ later,
          latestAt directory (later ++ t :: before) t.name = some w :=
        latestAt_of_exists ⟨u, hu, hplace⟩
      obtain rfl := Option.some.inj (hlatest.symm.trans hlater)
      exact hlast w hw' (ht.name_eq hloads)
    · intro hlater
      obtain rfl := Option.some.inj (hlatest.symm.trans (latestAt_of_forall hlater))
      exact hloads
  refine ⟨hiff, fun hplain hlater => hiff.2 fun u hu hplace => hlast u hu ?_⟩
  exact (hlater u hu).location_injective (by decide) (by decide) directory hplain hplace

/-- A store with two tables. -/
def twoTables (other : String) : Store :=
  after (perform (.newTable ⟨0⟩ other (.schema eachKind))) (withTable eachKind)

/-- Two tables saved in the directory of one session, the first before the other one. -/
def bothSaved (other : String) : Store :=
  after (saveTable ⟨0⟩ ⟨1⟩) (after (saveTable ⟨0⟩ ⟨0⟩) (twoTables other))

theorem savedIn_bothSaved {other : String} {path path' : Path}
    (hfirst : saveTable ⟨0⟩ ⟨0⟩ (twoTables other) =
      .ok path (after (saveTable ⟨0⟩ ⟨0⟩) (twoTables other)))
    (hsecond : saveTable ⟨0⟩ ⟨1⟩ (after (saveTable ⟨0⟩ ⟨0⟩) (twoTables other)) =
      .ok path' (bothSaved other))
    (hs : (after (saveTable ⟨0⟩ ⟨0⟩) (twoTables other)).sessions = [⟨⟨"/", []⟩, 0, []⟩])
    (ht : (after (saveTable ⟨0⟩ ⟨0⟩) (twoTables other)).tables =
      [Table.empty ⟨0⟩ "t" eachKind, Table.empty ⟨0⟩ other eachKind]) :
    SavedIn ⟨"/", []⟩ [Table.empty ⟨0⟩ other eachKind, Table.empty ⟨0⟩ "t" eachKind]
      (bothSaved other) := by
  have hreached : Reached (twoTables other) :=
    .step (reached_withTable eachKind) (.newTable ⟨0⟩ other (.schema eachKind))
  have hone : SavedIn ⟨"/", []⟩ [Table.empty ⟨0⟩ "t" eachKind]
      (after (saveTable ⟨0⟩ ⟨0⟩) (twoTables other)) := .save (.start hreached) rfl rfl rfl hfirst
  exact .save hone (by rw [hs]; rfl) rfl (by rw [ht]; rfl) hsecond

/-- A table in a directory of its own does not hide another one. -/
theorem loads_iff_own_directory :
    Loads ⟨0⟩ "t" (Table.empty ⟨0⟩ "t" eachKind) (bothSaved "a/t") := by
  have hsaved : SavedIn ⟨"/", []⟩
      ([Table.empty ⟨0⟩ "a/t" eachKind] ++ Table.empty ⟨0⟩ "t" eachKind :: []) (bothSaved "a/t") :=
    savedIn_bothSaved rfl rfl rfl rfl
  refine (loads_iff hsaved ?_ rfl rfl).2 (by decide) ?_
  · intro u hu
    rw [List.mem_singleton.1 hu]
    decide
  · intro u hu
    rw [List.mem_singleton.1 hu]
    decide

/-- A table with a detour in its name takes the place of another one, and is loaded instead. -/
theorem not_loads_detour :
    SavedIn ⟨"/", []⟩ [Table.empty ⟨0⟩ "./t" eachKind, Table.empty ⟨0⟩ "t" eachKind]
        (bothSaved "./t") ∧
      ¬Loads ⟨0⟩ "t" (Table.empty ⟨0⟩ "t" eachKind) (bothSaved "./t") := by
  refine ⟨savedIn_bothSaved rfl rfl rfl rfl, fun h => ?_⟩
  have hother : Loads ⟨0⟩ "t" (Table.empty ⟨0⟩ "./t" eachKind) (bothSaved "./t") :=
    ⟨⟨2⟩, _, _, rfl, rfl, rfl, rfl, rfl, rfl⟩
  exact absurd (h.name_eq hother) (by decide)

end KeyedRelations.Store
