import KeyedRelations.Frame.Times

/-!
# Columns from values

`FrameType.fill` makes a column that is declared with a type and a list of values. What becomes of the
values depends on the first that is not null where a type leaves that open; a column that takes its
type from its values (`collect`) takes it from that one. The type of the column that results is not
always the declared one.
-/

namespace KeyedRelations.FrameType

/-- The values as they are, if a column of the type takes all of them. -/
def collectAs (type : FrameType) (column : String) (values : List Value) :
    Except Fault (List Value) := do
  Value.checkAll type column (values.zip (← Value.sampleAll values))
  return values

/-- A column with the type of its first value that is not null. -/
def collect (column : String) (values : List Value) : Except Fault (FrameType × List Value) := do
  let types ← Value.sampleAll values
  let type := (types.find? (!·.isNull)).getD .null
  Value.checkAll type column (values.zip types)
  return (type, values)

/-- A column of values of the type's own kind. -/
def holdAll (type : FrameType) (column : String) (values : List Value) :
    Except Fault (List Value) :=
  match values.mapM type.hold? with
  | some held => .ok held
  | none => type.collectAs column values

/-- A column of dates or times. Values that are neither counts nor texts stay as they are. -/
def fillTimes (type : FrameType) (column : String) (values : List Value) :
    Except Fault (FrameType × List Value) :=
  match values.find? (!·.isNull) with
  | none => .ok (type, values)
  | some (.float _) | some (.nan _ _) => .error (.frame (.floatingTime type.timeKind))
  | some (.int _) | some (.bool _) =>
    match collect column values with
    | .ok (source, held) => (type.ofCounts source column held).map (type, ·)
    | .error _ => (type.collectAs column values).map (type, ·)
  | some (.text _) => do
    let (_, texts) ← collect column values
    return (type, ← type.ofTexts column texts)
  | some _ => collect column values

/-- How doubles are written before they are read as decimals. -/
def decimalLayout : DecimalLayout where
  leastPositional := -5
  firstScientific := 16
  exponentMark := "e"
  plus := ""
  exponentDigits := 1
  wholeSuffix := ".0"
  infinity := "inf"
  notANumber := "NaN"

/-- A column of decimals from texts, with as many places as the texts before the first null have at
most. A text that cannot be read counts as null. -/
def decimalsOfTexts (texts : List (Option String)) : List Value :=
  let leading := (texts.takeWhile (·.isSome)).reduceOption
  let places := (leading.map Text.placesOf).foldl max 0
  texts.map fun text =>
    ((text >>= Text.fixed? places).map fun x => Value.foreign (.decimal x)).getD .null

/-- A column of decimals from values of one type. -/
def ofNumbers (source : FrameType) (column : String) (values : List Value) :
    Except Fault (List Value) :=
  match source with
  | .null => .ok values
  | .string => .ok <| decimalsOfTexts <| values.map fun
    | .text s => some s
    | _ => none
  | .float64 => .ok <| decimalsOfTexts <| values.map fun
    | .float x | .nan x _ => some (decimalLayout.text x)
    | _ => none
  | .integer _ _ =>
    converted values
      (values.map fun v => (v.integer? >>= FixedPoint.ofUnits? 0).map .decimal) fun failures =>
      ⟨column, source.shortName, decimal.shortName, failures, values.length, .none, false⟩
  | source => .error (.frame (.noDecimals source.name))

/-- A column of decimals. -/
def fillDecimals (column : String) (values : List Value) : Except Fault (List Value) :=
  match collect column values with
  | .ok (source, held) => source.ofNumbers column held
  | .error _ => .error (.frame .decimalTypes)

/-- A column of lists. -/
def fillLists (type : FrameType) (column : String) (values : List Value) :
    Except Fault (List Value) := do
  discard (Value.sampleAll values)
  if values.all type.admits then return values else throw (.frame (.noList type.name column))

/-- The number of records that are asked for their fields. -/
def recordLimit : Nat := 100

/-- The value of a field; null where there is no such field. -/
def fieldOf (name : String) : Value → Value
  | .dict entries => ((entries.find? fun (k, _) => k.same (.text name)).map (·.2)).getD .null
  | _ => .null

/-- The values of a field in the type that takes in all of them. -/
def fillField (values : List Value) (name : String) : Except Fault (List Value) := do
  let cells := values.map (fieldOf name)
  let types ← Value.sampleAll cells
  cells.mapM ((types.take recordLimit).foldl union .null).convert

/-- A column of records, each with all fields in the order in which they appear first. -/
def fillRecords (values : List Value) : Except Fault (List Value) := do
  let types ← Value.sampleAll values
  match (types.take recordLimit).foldl union .null with
  | .record fields =>
    let names := fields.map (·.1)
    let columns ← names.mapM (fillField values)
    return values.zipIdx.map fun (v, i) =>
      if v.isNull then .null
      else .dict (names.map .text |>.zip (columns.map (·.getD i .null)))
  | _ => return values

/-- A column of texts of a fixed set. As the set is empty, every text is refused. -/
def fillEnumeration (column : String) (values : List Value) : Except Fault (List Value) := do
  let texts ← enumeration.holdAll column values
  converted texts (texts.map fun _ => none) fun failures =>
    ⟨column, string.shortName, enumeration.shortName, failures, values.length, .categories, false⟩

/-- The type that a column is tried with first if it takes its type from its values. -/
def expected : Value → FrameType
  | .bool _ => .boolean
  | .int _ => .integer true 64
  | .float _ | .nan _ _ => .float64
  | .text _ => .string
  | .bytes _ => .binary
  | _ => .null

/-- A column that takes its type from its values. -/
def infer (column : String) (values : List Value) : Except Fault (FrameType × List Value) :=
  match (values.find? (!·.isNull)).map expected with
  | none => .ok (.null, values)
  | some type =>
    match if type.isNull then none else values.mapM type.hold? with
    | some held => .ok (type, held)
    | none => collect column values

/-- The column of a type with a name and values. -/
def fill (type : FrameType) (column : String) (values : List Value) :
    Except Fault (FrameType × List Value) :=
  match type with
  | .date | .datetime | .time | .duration => type.fillTimes column values
  | .decimal => (fillDecimals column values).map (type, ·)
  | .list _ => (type.fillLists column values).map (type, ·)
  | .record _ => (fillRecords values).map (type, ·)
  | .enumeration => (fillEnumeration column values).map (type, ·)
  | .null => .ok (type, values.map fun _ => .null)
  | .ofValues => infer column values
  | .object | .other _ => .ok (type, values)
  | _ => (type.holdAll column values).map (type, ·)

end KeyedRelations.FrameType
