import KeyedRelations.Calendar.Pattern
import KeyedRelations.Fault
import KeyedRelations.Trace.Level

/-!
# Lines of the trace

A line shows the time in UTC, the level in its colour, the name of the logger and the message.
Colours are escape sequences, and every line ends with the one that resets them. Times are counted in
64 bits and years in 32, so a moment can be too far away to be shown.
-/

namespace KeyedRelations.Trace

def escape (codes : String) : String := "\x1b[" ++ codes ++ "m"

def reset : String := escape "0"

/-- The colour of a level by its name; other levels have none. -/
def colour (levelName : String) : String :=
  match levelName with
  | "DEBUG" => escape "36"
  | "INFO" => escape "32"
  | "WARNING" => escape "33"
  | "ERROR" => escape "31"
  | "CRITICAL" => escape "1;31"
  | _ => ""

/-- The pattern of a time where no other is given. -/
def timePattern : String := "%Y-%m-%dT%H:%M:%SZ"

/-- The civil time of a moment whose years since 1900 fit 32 bits and whose year does. -/
def civilTime (seconds : Int) : Except Fault CivilTime :=
  let t := CivilTime.ofSeconds seconds
  if seconds < -0x8000000000000000 ∨ 0x8000000000000000 ≤ seconds then .error (.moment .seconds)
  else if t.year - 1900 < -0x80000000 ∨ 0x80000000 ≤ t.year - 1900 then .error (.moment .calendar)
  else if 0x80000000 ≤ t.year then .error (.moment .year)
  else .ok t

/-- A time by a pattern; an empty pattern gives none. -/
def timeText (seconds : Int) (pattern : Option String) : Except Fault String := do
  let pattern :=
    match pattern with
    | none | some "" => timePattern
    | some pattern => pattern
  let t ← civilTime seconds
  if pattern.toList.contains '\x00' then throw .nulInPattern
  return t.format pattern

/-- A line of the trace. -/
def line (seconds : Int) (level : Level) (logger message : String) : Except Fault String := do
  let text :=
    (← timeText seconds none) ++ " " ++ colour level.name ++ Text.alignLeft 8 level.name ++ reset
      ++ " " ++ logger ++ ": " ++ message
  return if text.endsWith reset then text else text ++ reset

end KeyedRelations.Trace
