import KeyedRelations.Trace.Level

/-!
# Trace entries

Every operation leaves a trace: table definitions, insertions, operators, and what happens to
snapshots and sessions, each on a channel of its own.
-/

namespace KeyedRelations.Trace

/-- Where an entry comes from. -/
inductive Channel where
  | session | table | algebra | snapshot
  deriving DecidableEq

/-- The name under which a channel can be listened to. -/
def Channel.name : Channel → String
  | .session => "relalg._ctx"
  | .table => "relalg.table"
  | .algebra => "relalg.algebra"
  | .snapshot => "relalg.storage"

/-- One line of the trace. -/
structure Entry where
  level : Level
  channel : Channel
  text : String

end KeyedRelations.Trace
