import KeyedRelations.Files.Path
import KeyedRelations.MsgPack.Encode

/-!
# Settings

What the environment decides: where snapshots are kept, how much is traced, and how many levels the
documents of snapshots may have.
-/

namespace KeyedRelations

structure Settings where
  /-- The home directory of the user. -/
  home : Path
  /-- The variable `RELALG_DATADIR`. -/
  directory? : Option String
  /-- The variable `RELALG_LOGLEVEL`. -/
  level? : Option String
  /-- What the interpreter has room for where snapshots are written and read. -/
  room : MsgPack.Room

namespace Settings

/-- The value of a variable, in which no character is NUL. -/
def checkVariable (value? : Option String) : Except Fault (Option String) :=
  if (value?.getD "").contains '\x00' then .error .embeddedNul else .ok value?

/-- The settings of an environment. -/
def define (home : Path) (directory? level? : Option String) (room : MsgPack.Room) :
    Except Fault Settings := do
  return ⟨home, ← checkVariable directory?, ← checkVariable level?, room⟩

variable (settings : Settings)

/-- The settings with another trace level. -/
def withLevel (level? : Option String) : Except Fault Settings := do
  return { settings with level? := ← checkVariable level? }

/-- The directory of snapshots where no other is given. -/
def directory : Path :=
  match settings.directory? with
  | some s => .ofString s
  | none => settings.home.join (.ofString ".relalg")

/-- The directory of snapshots for a session; an empty text gives none. -/
def directoryOr (given : Option String) : Path :=
  match given with
  | none | some "" => settings.directory
  | some s => .ofString s

/-- The name of the trace level where no other is given. -/
def level : String := settings.level?.getD "info"

/-- The name of the trace level; an empty text gives none. -/
def levelOr (given : Option String) : String :=
  match given with
  | none | some "" => settings.level
  | some s => s

end Settings

end KeyedRelations
