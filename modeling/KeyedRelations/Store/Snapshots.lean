import KeyedRelations.Store.Tables

/-!
# Saving and loading

The snapshot of a table is one file in the directory of a session, named after the table. It is
written beside its place and then moved there, so what is in its place is always a whole snapshot.
-/

namespace KeyedRelations.Store

/-- Where the snapshot of a table of the given name is kept. -/
def snapshotPath (directory : Path) (name : String) : Path :=
  directory.join (.ofString (name ++ ".dbf"))

/-- Where a snapshot is written before it is moved into its place. -/
def draftPath (path : Path) : Path := path.withSuffix ".tmp"

/-- Writes a snapshot by way of a draft. -/
def writeSnapshot (room : MsgPack.Room) (path : Path) (snapshot : Snapshot) :
    FileAction Unit := do
  FileAction.ensureDirectories path.parent
  match Recordable.encode room snapshot with
  | .ok bytes => FileAction.write (draftPath path) bytes
  | .error fault => throw fault
  FileAction.move (draftPath path) path

/-- Saves a table in a directory. What a failure leaves of the draft is removed. -/
def saveIn (directory : Path) (t : Table) : Action Path := do
  let path := snapshotPath directory t.name
  let room ← room
  tryCatch (onFiles (writeSnapshot room path t.toSnapshot)) fun fault => do
    match fault with
    | .file _ =>
      onFiles (FileAction.delete (draftPath path))
      throw (.snapshot (.unwritable t.name path.text))
    | fault => throw fault
  report .info .snapshot
    ("saved " ++ t.name ++ " (" ++ Text.grouped t.size ++ " rows) to " ++ path.text)
  return path

/-- Saves a table in the directory of a session. -/
def saveTable (id : SessionId) (t : TableId) : Action Path := do
  saveIn (← session id).directory (← table t)

/-- Saves a registered table. -/
def save (id : SessionId) (name : String) : Action Path := do
  match (← session id).registry.find? name with
  | some t => saveTable id t
  | none => throw (.snapshot (.notRegistered name))

/-- Reads a snapshot from a directory. -/
def readSnapshot (directory : Path) (name : String) : Action Snapshot := do
  let path := snapshotPath directory name
  let bytes ← tryCatch (onFiles (FileAction.contents path)) fun fault =>
    match fault with
    | .file _ => throw (.snapshot (.unreadable path.text))
    | fault => throw fault
  match Recordable.decode Snapshot (← room) bytes with
  | .ok snapshot =>
    report .info .snapshot
      ("loaded " ++ snapshot.name ++ " (" ++ Text.grouped snapshot.rows.length ++ " rows) from "
        ++ path.text)
    return snapshot
  | .error (.document .malformed) | .error (.document .illTyped) =>
    throw (.snapshot (.corrupt path.text))
  | .error fault => throw fault

/-- Loads a table into a session and registers it. -/
def load (id : SessionId) (name : String) : Action TableId := do
  let snapshot ← readSnapshot (← session id).directory name
  match Table.ofSnapshot id snapshot with
  | .ok t =>
    let t ← addTable t
    register id t
    return t
  | .error (.typing cause) => throw (.snapshot (.invalid name cause.message))
  | .error (.definition cause) => throw (.snapshot (.invalid name cause.message))
  | .error fault => throw fault

end KeyedRelations.Store
