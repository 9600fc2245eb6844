import KeyedRelations.Calendar.Instant
import KeyedRelations.Number.Fixed

/-!
# Foreign values

Frames also have columns of dates, times and decimals. No domain accepts what they hold, so all that
is asked of it is its unambiguous text. Parts that are zero are left out as far as the kind allows.
-/

namespace KeyedRelations

/-- What a frame can hold and a table can not. -/
inductive Foreign where
  | date (year : Int) (month day : Nat)
  /-- A date and a time of day, with or without the name of UTC. -/
  | moment (t : Instant) (isZoned : Bool)
  /-- A time of day, in microseconds since midnight. -/
  | clock (micros : Nat)
  /-- A length of time, in microseconds. -/
  | duration (micros : Int)
  | decimal (x : FixedPoint)
  deriving DecidableEq

namespace Foreign

def kindName : Foreign → String
  | .date _ _ _ => "datetime.date"
  | .moment _ _ => "datetime.datetime"
  | .clock _ => "datetime.time"
  | .duration _ => "datetime.timedelta"
  | .decimal _ => "decimal.Decimal"

/-- The date of a day since the beginning of 1970. -/
def ofDay (day : Int) : Foreign :=
  let (year, month, dayOfMonth) := CivilTime.ofDay day
  .date year month dayOfMonth

/-- The year, of what has one. -/
def year? : Foreign → Option Int
  | .date year _ _ => some year
  | .moment t _ => some t.civil.year
  | _ => none

/-- The parts of a duration, each with its name: whole days, seconds and microseconds. -/
def durationParts (micros : Int) : List (String × Int) :=
  [("days", micros / 86400000000), ("seconds", micros / 1000000 % 86400),
    ("microseconds", micros % 1000000)]

def arguments : Foreign → List String
  | .date year month day => [toString year, toString month, toString day]
  | .moment t isZoned =>
    t.parts ++ if isZoned then ["tzinfo=zoneinfo.ZoneInfo(key='UTC')"] else []
  | .clock micros => (Instant.mk micros).parts.drop 3
  | .duration micros =>
    let parts := (durationParts micros).filter (·.2 ≠ 0)
    if parts.isEmpty then ["0"] else parts.map fun (name, n) => name ++ "=" ++ toString n
  | .decimal x => ["'" ++ x.text ++ "'"]

/-- The unambiguous text. -/
def shown (x : Foreign) : String :=
  let kind :=
    match x with
    | .decimal _ => "Decimal"
    | x => x.kindName
  kind ++ "(" ++ ", ".intercalate x.arguments ++ ")"

end Foreign

end KeyedRelations
