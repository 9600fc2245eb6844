import KeyedRelations.Files.Tree
import KeyedRelations.Settings
import KeyedRelations.Table.Basic
import KeyedRelations.Trace.Entry

/-!
# The store

The store holds all tables and sessions by number, the tree of files, and the trace. A session is
what a family of tables shares: the counter behind the names of results, a registry of tables by
name, and the directory of snapshots. Tables and sessions are never removed, and a registry keeps
the place of a name that is registered again.

An action that fails keeps what it has done to the store up to there.
-/

namespace KeyedRelations

/-- The number of a table. -/
structure TableId where
  number : Nat
  deriving DecidableEq

/-- Tables by name, in the order in which the names came up. -/
abbrev Registry := List (String × TableId)

namespace Registry

def find? (r : Registry) (name : String) : Option TableId := r.lookup name

/-- Puts a table under a name, in the place of the name if it has one and last otherwise. -/
def enter (name : String) (id : TableId) : Registry → Registry
  | [] => [(name, id)]
  | (other, table) :: rest =>
    if other = name then (name, id) :: rest else (other, table) :: enter name id rest

@[simp]
theorem find?_enter_self (r : Registry) (name : String) (id : TableId) :
    find? (enter name id r) name = some id := by
  induction r with
  | nil => simp [enter, find?]
  | cons entry rest ih =>
    obtain ⟨other, table⟩ := entry
    by_cases h : other = name
    · simp [enter, find?, h]
    · have hbeq : (name == other) = false := by simpa using Ne.symm h
      simpa [enter, find?, h, List.lookup_cons, hbeq] using ih

theorem find?_enter_of_ne (r : Registry) {name other : String} (id : TableId)
    (h : other ≠ name) : find? (enter name id r) other = find? r other := by
  induction r with
  | nil =>
    have hbeq : (other == name) = false := by simpa using h
    simp [enter, find?, List.lookup_cons, hbeq]
  | cons entry rest ih =>
    obtain ⟨first, table⟩ := entry
    by_cases hfirst : first = name
    · have hbeq : (other == name) = false := by simpa using h
      simp [enter, find?, hfirst, List.lookup_cons, hbeq]
    · cases hbeq : other == first <;> simp_all [enter, find?, List.lookup_cons]

end Registry

/-- What a family of tables shares. -/
structure Session where
  directory : Path
  counter : Nat
  registry : Registry

namespace Session

variable (s : Session)

/-- The names of what every session offers. -/
def ownNames : List String :=
  ["create_table", "datadir", "load", "next_name", "register", "save", "tables"]

/-- The names of what every session keeps for itself. -/
def hiddenNames : List String := ["_counter", "_log", "_table_map"]

/-- Whether a session has something of its own under a name. What every object has is inherited. -/
def isOwn (inherited : List String) (name : String) : Bool :=
  (inherited ++ hiddenNames ++ ownNames).contains name

/-- Whether a table is registered under a name. -/
def has (name : String) : Bool := (s.registry.find? name).isSome

/-- All names that a session answers to, in order and without repetition. -/
def names (inherited : List String) : List String :=
  ((inherited ++ hiddenNames ++ ownNames ++ s.registry.map (·.1)).mergeSort fun a b => a ≤ b).eraseDups

end Session

/-- All tables and sessions, the files, and the trace with its latest entry first. -/
structure Store where
  settings : Settings
  tables : List Table
  sessions : List Session
  files : FileTree
  trace : List Trace.Entry

/-- An action on the store. -/
abbrev Action (α : Type) := EStateM Fault Store α

namespace Store

/-- The store without tables and sessions. -/
def initial (settings : Settings) (files : FileTree) : Store := ⟨settings, [], [], files, []⟩

/-- Adds an entry to the trace. -/
def report (level : Trace.Level) (channel : Trace.Channel) (text : String) : Action Unit :=
  modify fun store => { store with trace := ⟨level, channel, text⟩ :: store.trace }

/-- The outcome of a computation that leaves the store alone. -/
def outcome {α : Type} : Except Fault α → Action α
  | .ok a => pure a
  | .error fault => throw fault

/-- An action on the files of the store. -/
def onFiles {α : Type} (action : FileAction α) : Action α := fun store =>
  match action store.files with
  | .ok a files => .ok a { store with files }
  | .error fault files => .error fault { store with files }

/-- What the interpreter has room for. -/
def room : Action MsgPack.Room := do return (← get).settings.room

/-! ## Tables and sessions by number -/

def table (id : TableId) : Action Table := do
  match (← get).tables[id.number]? with
  | some t => return t
  | none => throw (.absent id.number)

def session (id : SessionId) : Action Session := do
  match (← get).sessions[id.number]? with
  | some s => return s
  | none => throw (.absent id.number)

def setTable (id : TableId) (t : Table) : Action Unit :=
  modify fun store => { store with tables := store.tables.set id.number t }

def setSession (id : SessionId) (s : Session) : Action Unit :=
  modify fun store => { store with sessions := store.sessions.set id.number s }

/-- Gives a table the next number. -/
def addTable (t : Table) : Action TableId :=
  modifyGet fun store => (⟨store.tables.length⟩, { store with tables := store.tables ++ [t] })

/-- Starts a session. A table that should be registered at once is refused: it belongs to a session
that was there before. -/
def newSession (directory : Path) (tables : List TableId) : Action SessionId := do
  match tables with
  | [] =>
    modifyGet fun store =>
      (⟨store.sessions.length⟩, { store with sessions := store.sessions ++ [⟨directory, 0, []⟩] })
  | first :: _ => throw (.foreignTable (← table first).name)

/-- Starts a session of its own for a table. -/
def privateSession : Action SessionId := do newSession (← get).settings.directory []

/-! ## Names -/

/-- A name made of another and the next number of the session. -/
def nextName (id : SessionId) (base : String) : Action String := do
  let s ← session id
  setSession id { s with counter := s.counter + 1 }
  return base ++ Text.decimal s.counter

/-- Registers a table of the session under its name. -/
def register (id : SessionId) (table : TableId) : Action Unit := do
  let t ← Store.table table
  if t.session ≠ id then throw (.foreignTable t.name)
  let s ← session id
  setSession id { s with registry := s.registry.enter t.name table }
  report .debug .session ("registered table " ++ t.name)

/-- The table registered under a name. -/
def item (id : SessionId) (name : String) : Action TableId := do
  match (← session id).registry.find? name with
  | some table => return table
  | none => throw (.noTable name)

/-- What an attribute of a session is. -/
inductive Member where
  /-- Something that every session has under the name. -/
  | own (name : String)
  | table (id : TableId)
  deriving DecidableEq

/-- The attribute of a session with a name: a registered table only if the session has nothing of its own
under the name. -/
def member (inherited : List String) (id : SessionId) (name : String) : Action Member := do
  let s ← session id
  if Session.isOwn inherited name then return .own name
  match s.registry.find? name with
  | some table => return .table table
  | none => throw (.noAttribute name)

/-- The registered tables, in the order in which their names were first registered. -/
def registered (id : SessionId) : Action (List TableId) := do
  return (← session id).registry.map (·.2)

end Store

end KeyedRelations
