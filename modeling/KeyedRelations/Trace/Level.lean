import KeyedRelations.Text.DecimalDigit

/-!
# Trace levels

A level is a number; six numbers have names, and two of the names have a synonym.
-/

namespace KeyedRelations.Trace

/-- How much a report matters. -/
abbrev Level := Int

namespace Level

def notSet : Level := 0
def debug : Level := 10
def info : Level := 20
def warning : Level := 30
def error : Level := 40
def critical : Level := 50

/-- The names of levels; the first name of a level is the one that is shown. -/
def names : List (String × Level) :=
  [("CRITICAL", critical), ("FATAL", critical), ("ERROR", error), ("WARNING", warning),
    ("WARN", warning), ("INFO", info), ("DEBUG", debug), ("NOTSET", notSet)]

def ofName? (name : String) : Option Level := (names.find? (·.1 == name)).map (·.2)

/-- The name of a level, or its number. -/
def name (level : Level) : String :=
  match names.find? (·.2 == level) with
  | some (name, _) => name
  | none => "Level " ++ Text.decimal level

end Level

end KeyedRelations.Trace
