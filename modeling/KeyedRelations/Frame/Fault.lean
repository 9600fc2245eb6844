import KeyedRelations.Text.DecimalDigit
import KeyedRelations.Text.Layout

/-!
# Faults of frames

Why columns do not hold what they are given, why columns or rows do not make up a frame, and the words
for it.
-/

namespace KeyedRelations

/-- What may help with values that cannot be converted. -/
inductive ConversionAdvice where
  | none
  /-- The texts have to be of one format. -/
  | format
  /-- The texts have to be categories. -/
  | categories
  deriving DecidableEq

/-- A conversion of a column that fails for some of its values; the failures are texts of values. -/
structure Conversion where
  column : String
  source : String
  target : String
  failures : List String
  total : Nat
  advice : ConversionAdvice
  /-- Whether the fault is one of reading texts, which says so. -/
  isReading : Bool

/-- Why a frame is refused. -/
inductive FrameFault where
  /-- Rows that have too few values for the columns, or too many. -/
  | rowWidth
  /-- Texts that are the cells of a single row, and not one for each column. -/
  | cellCount
  /-- A row that is not as long as the first. -/
  | rowLength (position length expected : Nat)
  /-- A text among rows that are tuples. -/
  | textRow
  | columnHeight (column : String) (height : Nat) (first : String) (expected : Nat)
  | repeatedColumn (name : String)
  /-- A value of another type among those of a column. -/
  | value (type found shown column : String)
  /-- A value that is no list among the lists of a column. -/
  | noList (type column : String)
  /-- A value in a row that a column does not take. -/
  | cell (shown type : String)
  /-- A name of a field that is no text. -/
  | fieldName (kind : String)
  /-- A floating-point number in a column of dates or times. -/
  | floatingTime (kind : String)
  | conversion (c : Conversion)
  /-- Texts of no known format; the column is given if the fault says what was read. -/
  | format (kind : String) (column? : Option String)
  /-- Values of several types among decimals. -/
  | decimalTypes
  /-- A type of values that does not go with decimals. -/
  | noDecimals (type : String)

namespace FrameFault

/-- What is said of a fault while texts are read. -/
def whileReading (column : String) : String :=
  "\n\nThis error occurred in the following expression:\n\tcol(\"" ++ column
    ++ "\").str.strptime([\"raise\"])\n"

/-- What is said of a fault while a column is built from its values. -/
def whileBuilding (column : String) : String :=
  "\n\nThis error occurred with the following context stack:\n\t[1] while constructing Series '"
    ++ column
    ++ "'\n\n\nHint: Try setting `strict=False` to allow passing data with mixed types."

def adviceText : ConversionAdvice → String
  | .none => ""
  | .format =>
    "\n\nYou might want to try:\n- setting `strict=False` to set values that cannot be converted"
      ++ " to `null`\n- using `str.strptime`, `str.to_date`, `str.to_datetime`, or `str.to_time`"
      ++ " and providing a format string"
  | .categories =>
    "\n\nEnsure that all values in the input column are present in the categories of the enum"
      ++ " datatype."

def conversionText (c : Conversion) : String :=
  "conversion from `" ++ c.source ++ "` to `" ++ c.target ++ "` failed in column '" ++ c.column
    ++ "' for " ++ Text.decimal c.failures.length ++ " out of " ++ Text.decimal c.total
    ++ " values: " ++ Text.abridged c.failures ++ adviceText c.advice
    ++ (if c.isReading then whileReading c.column else "")

def message : FrameFault → String
  | .rowWidth => "the row data does not match the number of columns"
  | .cellCount => "data does not match the number of columns"
  | .rowLength position length expected =>
    "row at index " ++ Text.decimal position ++ " has length " ++ Text.decimal length
      ++ " (expected " ++ Text.decimal expected ++ ")"
  | .textRow => "Can't extract `str` to `Vec`"
  | .columnHeight column height first expected =>
    "could not create a new DataFrame: height of column '" ++ column ++ "' ("
      ++ Text.decimal height ++ ") does not match height of column '" ++ first ++ "' ("
      ++ Text.decimal expected ++ ")"
  | .repeatedColumn name =>
    "could not create a new DataFrame: column with name '" ++ name
      ++ "' has more than one occurrence"
  | .value type found shown column =>
    "unexpected value while building Series of type " ++ type ++ "; found value of type " ++ found
      ++ ": " ++ shown ++ whileBuilding column
  | .noList type column =>
    "unexpected value while building Series of type " ++ type ++ whileBuilding column
  | .cell shown type =>
    "could not append value: " ++ shown ++ " of type: " ++ type
      ++ " to the builder; make sure that all rows have the same schema or consider increasing"
      ++ " `infer_schema_length`\n\nit might also be that a value overflows the data-type's"
      ++ " capacity"
  | .fieldName kind => "'" ++ kind ++ "' object is not an instance of 'str'"
  | .floatingTime kind => "'float' object cannot be interpreted as a '" ++ kind ++ "'"
  | .conversion c => conversionText c
  | .format kind column? =>
    "could not find an appropriate format to parse " ++ kind ++ ", please define a format"
      ++ (column?.map whileReading).getD ""
  | .decimalTypes => "Decimal without precision/scale set is not a valid Polars datatype"
  | .noDecimals type => "can't convert " ++ type ++ " to Decimal"

end FrameFault

end KeyedRelations
