import KeyedRelations.Proofs.Store.Loading

/-!
# Loading a damaged snapshot

Of a file that was saved, an end may be lost, up to the whole of it, and bytes may have come behind
it. Loading notices both, puts them down to the file, and leaves everything as it was.
-/

namespace KeyedRelations.Store

variable {store saved later : Store} {id id' : SessionId} {s s' : Session} {tid : TableId} {t : Table}
  {path : Path} {place place' : Location} {written found : MsgPack.Bytes} {name : String}

/-- A file whose document is malformed is not loaded. -/
theorem load_malformed (hs : store.sessions[id.number]? = some s)
    (hfile : store.files.locate (snapshotPath s.directory name) = .ok (place, some (.file found)))
    (hdecode : Recordable.decode Snapshot store.settings.room found = .error (.document .malformed)) :
    load id name store =
      .error (.snapshot (.corrupt (snapshotPath s.directory name).text)) store :=
  load_error hs (readSnapshot_refused (FileAction.contents_ok hfile) hdecode)

/-- What saving a table writes is the document of a snapshot that its heads can hold. -/
theorem document_of_saveTable (hstore : Reached store) (ht : store.tables[tid.number]? = some t)
    (hs : store.sessions[id.number]? = some s) (hsave : saveTable id tid store = .ok path saved)
    (hwritten : saved.files.locate path = .ok (place, some (.file written))) :
    t.toRelation.Sound ∧ t.toSnapshot.Short ∧
      Recordable.encode store.settings.room t.toSnapshot = .ok written := by
  have hsound := (hstore.forall_tables Table.kept_sound t (List.mem_of_getElem? ht)).rows
  obtain ⟨-, bytes, place', hbytes, hsaved⟩ := saveTable_eq_ok ht hs hsave
  rw [hwritten] at hsaved
  cases hsaved
  exact ⟨hsound, Snapshot.short_of_encode hsound hbytes, hbytes⟩

/-- If a table of any history is saved, then a file that holds a beginning of what was written, or
what was written with something behind it, can be loaded by whatever session looks for it, under
whatever name, just if it holds what was written. Otherwise loading finds the file corrupt and leaves
the store as it was. -/
theorem load_damaged (hstore : Reached store) (ht : store.tables[tid.number]? = some t)
    (hs : store.sessions[id.number]? = some s) (hsave : saveTable id tid store = .ok path saved)
    (hwritten : saved.files.locate path = .ok (place, some (.file written)))
    (hfound : found <+: written ∨ written <+: found)
    (hs' : later.sessions[id'.number]? = some s')
    (hfile : later.files.locate (snapshotPath s'.directory name) =
      .ok (place', some (.file found))) :
    (found ≠ written → load id' name later =
      .error (.snapshot (.corrupt (snapshotPath s'.directory name).text)) later) ∧
    ((∃ tid' loaded, load id' name later = .ok tid' loaded) ↔ found = written) := by
  obtain ⟨hsound, hshort, hbytes⟩ := document_of_saveTable hstore ht hs hsave hwritten
  have hcorrupt : found ≠ written → load id' name later =
      .error (.snapshot (.corrupt (snapshotPath s'.directory name).text)) later := fun hne =>
    load_malformed hs' hfile
      (MsgPack.decode_damaged (stands_toSnapshot hsound hshort) hbytes not_false hfound hne)
  refine ⟨hcorrupt, ?_, ?_⟩
  · rintro ⟨tid', loaded, hload⟩
    by_contra hne
    rw [hcorrupt hne] at hload
    cases hload
  · rintro rfl
    obtain ⟨index, tid', loaded, hload, -⟩ := load_ok hsound hs' hshort hbytes hfile
    exact ⟨tid', loaded, hload⟩

/-- A file that has lost everything, and one with a zero behind it. -/
theorem load_damaged_each_kind :
    let saved := after (saveTable ⟨0⟩ ⟨0⟩) filledStore
    ∃ place written, saved.files.locate ⟨"/", ["t.dbf"]⟩ = .ok (place, some (.file written)) ∧
      load ⟨0⟩ "t" (withFile []) = .error (.snapshot (.corrupt "/t.dbf")) (withFile []) ∧
      load ⟨0⟩ "t" (withFile (written ++ [0])) =
        .error (.snapshot (.corrupt "/t.dbf")) (withFile (written ++ [0])) := by
  intro saved
  obtain ⟨place, written, hwritten, hne⟩ : ∃ place written,
      saved.files.locate ⟨"/", ["t.dbf"]⟩ = .ok (place, some (.file written)) ∧ written ≠ [] := by
    refine ⟨_, _, rfl, ?_⟩
    decide +kernel
  obtain ⟨t, ht⟩ : ∃ t, filledStore.tables[(⟨0⟩ : TableId).number]? = some t := ⟨_, rfl⟩
  have hs : filledStore.sessions[(⟨0⟩ : SessionId).number]? = some ⟨⟨"/", []⟩, 0, []⟩ := rfl
  have hsave : saveTable ⟨0⟩ ⟨0⟩ filledStore = .ok ⟨"/", ["t.dbf"]⟩ saved := rfl
  have hdamaged : ∀ found, found <+: written ∨ written <+: found → found ≠ written →
      load ⟨0⟩ "t" (withFile found) = .error (.snapshot (.corrupt "/t.dbf")) (withFile found) := by
    intro found hfound hne
    have hs' : (withFile found).sessions[(⟨0⟩ : SessionId).number]? = some ⟨⟨"/", []⟩, 0, []⟩ := rfl
    obtain ⟨place', hfile⟩ : ∃ place', (withFile found).files.locate (snapshotPath ⟨"/", []⟩ "t") =
        .ok (place', some (.file found)) := ⟨_, rfl⟩
    exact (load_damaged reached_filledStore ht hs hsave hwritten hfound hs' hfile).1 hne
  refine ⟨place, written, hwritten, hdamaged [] (.inl List.nil_prefix) hne.symm, ?_⟩
  refine hdamaged _ (.inr (List.prefix_append written [0])) fun heq => ?_
  simp at heq

end KeyedRelations.Store
