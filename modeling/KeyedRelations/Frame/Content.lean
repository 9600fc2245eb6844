import KeyedRelations.Frame.Sample
import KeyedRelations.Number.Reading

/-!
# What columns of frames hold

There are two ways into a column. A column that is declared with its values (`hold?`) takes values
of its own kind; among numbers truth values are zero and one, and floating-point columns also take
integers. A column that is filled from rows (`convert?`) also makes numbers of numerals and texts of
numbers, and cuts off what is behind the point when it wants integers. Either way a number that does
not fit is refused by an integer column and rounded by a floating-point column.
-/

namespace KeyedRelations

namespace Value

/-- The integer that a value is; truth values are zero and one. -/
def integer? : Value → Option Int
  | .bool b => some b.toInt
  | .int n => some n
  | _ => none

/-- The double nearest to a number; `none` for an integer beyond all doubles. -/
def double? (v : Value) : Option Double := do
  match ← v.number? with
  | .whole n => if (Double.ofInt n).isFinite then some (.ofInt n) else none
  | .double x => some x

/-- The number that a value is or writes. -/
def numeral? : Value → Option Number
  | .text s =>
    match (Text.whole? s.toList).filter (FrameType.holdsInteger true 128) with
    | some n => some (.whole n)
    | none => (Text.double? s).map .double
  | v => v.number?

/-- A number without what is behind its point. -/
def Number.truncated? : Number → Option Int
  | .whole n => some n
  | .double x => if x.isFinite then some (x.units.tdiv (twoTo 1074)) else none

/-- The double nearest to a number. -/
def Number.toDouble : Number → Double
  | .whole n => .ofInt n
  | .double x => x

/-- The single-precision number nearest to a number, which is rounded once. -/
def Number.toSingle : Number → Double
  | .whole n => BinaryFormat.single.nearest (n < 0) n.natAbs 0
  | .double x => x.toSingle

end Value

namespace FrameType

/-- What a declared column holds where it is given a value; `none` if it refuses the value. -/
def hold? (type : FrameType) (v : Value) : Option Value :=
  match type, v with
  | _, .null => some .null
  | .integer signed width, v => (v.integer?.filter (holdsInteger signed width)).map .int
  | .float64, v => v.double?.map .float
  | .float32, v => v.double?.map fun x => .float x.toSingle
  | .float16, v => v.double?.map fun x => .float (BinaryFormat.half.ofDouble x.toSingle)
  | type, v => if type.admits v then some v else none

/-- What a column filled from rows makes of a value; `none` if it refuses the value. The types that
no domain has take every value. -/
def convert? (type : FrameType) (v : Value) : Option Value :=
  match type, v with
  | _, .null => some .null
  | .integer signed width, v => do
    let n ← (← v.numeral?).truncated?
    if holdsInteger signed width n then some (.int n) else none
  | .float64, v => v.numeral?.map fun n => .float n.toDouble
  | .float32, v => v.numeral?.map fun n => .float n.toSingle
  | .string, .text s => some (.text s)
  | .string, .bool b => some (.text (if b then "true" else "false"))
  | .string, .int n => if holdsInteger true 64 n then some (.text (Text.decimal n)) else none
  | .string, .float x | .string, .nan x _ => some (.text (Double.positional.text x))
  | .string, _ => none
  | _, v => some v

/-- What a column filled from rows makes of a value. -/
def convert (type : FrameType) (v : Value) : Except Fault Value := do
  match type.convert? v with
  | some held => return held
  | none => throw (.frame (.cell v.sketch (← v.sample).shortName))

end FrameType

end KeyedRelations
