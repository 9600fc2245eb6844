import KeyedRelations.Calendar.Civil

/-!
# Instants

An instant is a moment with a resolution of a microsecond. It has three texts: the one of plain
documents, the one for a reader, and an unambiguous one.
-/

namespace KeyedRelations

/-- A moment as the number of microseconds since the beginning of 1970, in UTC. -/
structure Instant where
  micros : Int
  deriving DecidableEq

namespace Instant

/-- The first second of the year 1. -/
def firstSecond : Int := -62135596800

/-- The last second of the year 9999. -/
def lastSecond : Int := 253402300799

variable (t : Instant)

/-- The whole seconds. -/
def seconds : Int := t.micros / 1000000

/-- The microseconds beyond the whole seconds. -/
def fraction : Nat := (t.micros % 1000000).toNat

def civil : CivilTime := CivilTime.ofSeconds t.seconds

/-- The time of day; a fraction of a second is left out if it is zero. -/
def clock : String :=
  t.civil.clock ++ (if t.fraction = 0 then "" else "." ++ Text.zeroPadded 6 t.fraction)

/-- The text of the instant in a plain document. -/
def text : String := t.civil.date 4 ++ "T" ++ t.clock ++ "Z"

/-- The text of the instant for a reader. -/
def plain : String := t.civil.date 4 ++ " " ++ t.clock ++ "+00:00"

/-- The numbers of the date and the time of day, without seconds and microseconds at the end that are
zero. -/
def parts : List String :=
  let c := t.civil
  let day := [toString c.year, toString c.month, toString c.day, toString c.hour, toString c.minute]
  let rest :=
    if t.fraction ≠ 0 then [toString c.second, toString t.fraction]
    else if c.second ≠ 0 then [toString c.second]
    else []
  day ++ rest

/-- The unambiguous text of the instant. -/
def shown : String :=
  "datetime.datetime(" ++ ", ".intercalate (t.parts ++ ["tzinfo=datetime.timezone.utc"]) ++ ")"

end Instant

end KeyedRelations
