import KeyedRelations.Calendar.Reading
import KeyedRelations.Frame.Content

/-!
# Columns of dates and times

Columns of dates and times hold counts: days, microseconds, or nanoseconds of a day. They are declared
with such counts or with texts. The texts of a column of dates or moments are read by one family of
layouts, those of a column of times of day by the layout of the first.
-/

namespace KeyedRelations.FrameType

/-- What a count stands for in a column of dates or times, if it is in range. -/
def ofCount? (type : FrameType) (n : Int) : Option Foreign :=
  match type with
  | .date => if holdsInteger true 32 n then some (.ofDay n) else none
  | .datetime => if holdsInteger true 64 n then some (.moment ⟨n⟩ false) else none
  | .duration => if holdsInteger true 64 n then some (.duration n) else none
  | .time => if 0 ≤ n ∧ n < 86400000000000 then some (.clock (n.toNat / 1000)) else none
  | _ => none

/-- The kind of value that a column of dates or times stands for. -/
def timeKind : FrameType → String
  | .date => "date"
  | .datetime => "datetime"
  | .time => "time"
  | _ => "timedelta"

/-- The results of converting values: where there is none for a value, the conversion fails. -/
def converted (values : List Value) (results : List (Option Foreign))
    (report : List String → Conversion) : Except Fault (List Value) :=
  let failures := (values.zip results).filterMap fun (v, result) =>
    if v.isNull || result.isSome then none else some v.sketch
  if failures.isEmpty then
    .ok (results.map fun result => (result.map Value.foreign).getD .null)
  else .error (.frame (.conversion (report failures)))

/-- A column of dates or times from counts, which are values of the given type. -/
def ofCounts (type source : FrameType) (column : String) (values : List Value) :
    Except Fault (List Value) :=
  converted values (values.map fun v => v.integer? >>= type.ofCount?) fun failures =>
    ⟨column, source.shortName, type.shortName, failures, values.length, .none, false⟩

/-- A column of dates or times from texts. Texts of lengths of time stay as they are. -/
def ofTexts (type : FrameType) (column : String) (values : List Value) :
    Except Fault (List Value) :=
  let texts := values.map fun
    | .text s => some s
    | _ => none
  let report (target : String) (isReading : Bool) (failures : List String) : Conversion :=
    ⟨column, "str", target, failures, values.length, .format, isReading⟩
  let byFamily (families : List TimeFamily) (f : TimeFamily → WrittenTime → Option Foreign)
      (isReading : Bool) : Except Fault (List Value) :=
    match TimeFamily.first? families (fun t => t.date?) texts with
    | none => .error (.frame (.format "dates" (if isReading then some column else none)))
    | some family =>
      let target := if family.isZoned then "datetime[μs, UTC]" else type.shortName
      converted values (family.readAll (f family) (family.layouts.headD []) texts)
        (report target isReading)
  match type with
  | .date => byFamily TimeFamily.ofDates (fun _ t => t.date?.map .ofDay) true
  | .datetime =>
    byFamily TimeFamily.ofMoments (fun family t => t.instant?.map (.moment · family.isZoned)) false
  | .time =>
    let layout? := texts.findSome? fun text =>
      text.bind fun s => some (TimeLayout.timesOfDay.find? fun layout => (layout.read s).isSome)
    match layout?.join with
    | none => .error (.frame (.format "times" (some column)))
    | some layout =>
      let read (s : String) : Option Foreign :=
        (layout.read s).map fun t => .clock (t.clock / 1000)
      converted values (texts.map (· >>= read)) (report type.shortName true)
  | _ => .ok values

end KeyedRelations.FrameType
