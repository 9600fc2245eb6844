import KeyedRelations.Fault
import KeyedRelations.Settings
import KeyedRelations.Text.Uppercase
import KeyedRelations.Trace.Level

/-!
# Setting up the trace

The trace goes to the handlers of one logger. Setting it up gives this logger exactly one trace
handler, behind the handlers that others have added, and leaves the root logger alone unless it is
named among the loggers to be silenced.
-/

namespace KeyedRelations.Trace

inductive Handler where
  | trace
  /-- A handler that others have added. -/
  | foreign (number : Nat)
  deriving DecidableEq

structure Logger where
  level : Level
  propagates : Bool
  handlers : List Handler
  deriving DecidableEq

def Logger.initial : Logger := ⟨.notSet, true, []⟩

/-- All loggers: the one of the trace, the root, and the levels of others that have been set. -/
structure Loggers where
  own : Logger
  root : Logger
  others : List (String × Level)

/-- The name of the logger of the trace. -/
def ownName : String := "relalg"

namespace Loggers

def initial : Loggers := ⟨Logger.initial, ⟨.warning, true, []⟩, []⟩

def isRoot (name : String) : Bool := name == "" || name == "root"

/-- The level of a logger by name. -/
def level (loggers : Loggers) (name : String) : Level :=
  if isRoot name then loggers.root.level
  else if name == ownName then loggers.own.level
  else ((loggers.others.find? (·.1 == name)).map (·.2)).getD .notSet

def setLevel (loggers : Loggers) (name : String) (level : Level) : Loggers :=
  if isRoot name then { loggers with root := { loggers.root with level } }
  else if name == ownName then { loggers with own := { loggers.own with level } }
  else { loggers with others := (name, level) :: loggers.others.filter (·.1 != name) }

/-- Adds a handler that is not of the trace, unless it is there already. -/
def addForeign (loggers : Loggers) (number : Nat) : Loggers :=
  if .foreign number ∈ loggers.own.handlers then loggers
  else
    { loggers with
      own := { loggers.own with handlers := loggers.own.handlers ++ [.foreign number] } }

/-- Caps the named loggers at warnings. -/
def silence (loggers : Loggers) (names : List String) : Loggers :=
  names.foldl (fun loggers name => loggers.setLevel name .warning) loggers

/-- Puts a new trace handler in the place of earlier ones. -/
def renewHandler (loggers : Loggers) : Loggers :=
  let kept := loggers.own.handlers.filter (· != .trace)
  { loggers with own := { loggers.own with handlers := kept ++ [.trace] } }

/-- Silences other loggers, renews the handler, and sets the level. An unknown level is found out
last and leaves the level and the propagation as they are. -/
def setup (loggers : Loggers) (settings : Settings) (levelName : Option String)
    (silenced : List String) : Loggers × Except Fault Unit :=
  let name := Text.upper (settings.levelOr levelName)
  let renewed := (loggers.silence silenced).renewHandler
  match Level.ofName? name with
  | none => (renewed, .error (.unknownLevel name))
  | some level =>
    ({ renewed with own := { renewed.own with level, propagates := false } }, .ok ())

end Loggers

end KeyedRelations.Trace
