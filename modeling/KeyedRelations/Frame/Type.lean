import KeyedRelations.Domain
import KeyedRelations.Text.DecimalDigit

/-!
# Types of columns of frames

Every domain has a column type, and there are types that no domain has. A type has a full name, by
which messages about columns call it, and a short one for messages about values. `union` is the type
of a column that holds values of two types.
-/

namespace KeyedRelations

/-- The type of a column of a frame. -/
inductive FrameType where
  | integer (signed : Bool) (width : Nat)
  | float64 | float32 | float16
  | string | binary | boolean
  | date | datetime | time | duration | decimal
  /-- Texts that are likely to be repeated. -/
  | category
  /-- Texts of a fixed set, which is empty. -/
  | enumeration
  | list (item : FrameType)
  | record (fields : List (String × FrameType))
  /-- The type that holds nothing but null. -/
  | null
  | object
  /-- The type that a column takes from its values. -/
  | ofValues
  /-- A type that changes nothing. -/
  | other (name : String)

namespace FrameType

def ofDomain : Domain → FrameType
  | .integer64 => .integer true 64
  | .integer32 => .integer true 32
  | .integer16 => .integer true 16
  | .integer8 => .integer true 8
  | .float64 => .float64
  | .float32 => .float32
  | .character | .string => .string

mutual

def name : FrameType → String
  | .integer signed width => (if signed then "Int" else "UInt") ++ Text.decimal width
  | .float64 => "Float64"
  | .float32 => "Float32"
  | .float16 => "Float16"
  | .string => "String"
  | .binary => "Binary"
  | .boolean => "Boolean"
  | .date => "Date"
  | .datetime => "Datetime('μs')"
  | .time => "Time"
  | .duration => "Duration('μs')"
  | .decimal => "Decimal"
  | .category => "Categorical"
  | .enumeration => "Enum([...])"
  | .list item => "List(" ++ item.name ++ ")"
  | .record fields => "Struct(\x7b" ++ ", ".intercalate (fieldNames fields) ++ "\x7d)"
  | .null => "Null"
  | .object => "Object"
  | .ofValues => "Unknown"
  | .other name => name

/-- The names of fields with those of their types. -/
def fieldNames : List (String × FrameType) → List String
  | [] => []
  | (field, type) :: rest => ("'" ++ field ++ "': " ++ type.name) :: fieldNames rest

end

/-- The name in messages about values. -/
def shortName : FrameType → String
  | .integer signed width => (if signed then "i" else "u") ++ Text.decimal width
  | .float64 => "f64"
  | .float32 => "f32"
  | .float16 => "f16"
  | .string => "str"
  | .boolean => "bool"
  | .datetime => "datetime[μs]"
  | .duration => "duration[μs]"
  | .decimal => "decimal[38,0]"
  | .category => "cat"
  | .enumeration => "enum"
  | .list item => "list[" ++ item.shortName ++ "]"
  | .record fields => "struct[" ++ Text.decimal fields.length ++ "]"
  | type => type.name.toLower

/-- The types by which columns are declared, with their names. -/
def declared : List (String × FrameType) :=
  ([8, 16, 32, 64, 128].flatMap fun width =>
      [integer true width, integer false width].map fun type => (type.name, type))
    ++ [.float64, .float32, .float16, .string, .binary, .boolean, .date, .time, .decimal, .category,
      .null, .object, .ofValues].map (fun type => (type.name, type))
    ++ [("Utf8", .string), ("Datetime", .datetime), ("Duration", .duration), ("Enum", .enumeration),
      ("List", .list .null), ("Struct", .record [])]

def ofName (name : String) : FrameType := (declared.lookup name).getD (.other name)

/-- Whether an integer column holds a number. -/
def holdsInteger (signed : Bool) (width : Nat) (n : Int) : Bool :=
  if signed then -(twoTo (width - 1) : Int) ≤ n && n < twoTo (width - 1)
  else 0 ≤ n && n < twoTo width

/-- The narrowest type for a number among those of 64 and of 128 bits; `none` if it is wider. -/
def ofInteger? (n : Int) : Option FrameType :=
  ([(true, 64), (false, 64), (true, 128), (false, 128)].find? fun (signed, width) =>
    holdsInteger signed width n).map fun (signed, width) => .integer signed width

def isNull : FrameType → Bool
  | .null => true
  | _ => false

/-- The place of a type among those whose values can be taken for numbers or texts: a type takes in
those before it. -/
def rank : FrameType → Nat
  | .null => 0
  | .boolean => 1
  | .integer _ _ => 2
  | .float16 => 3
  | .float32 => 4
  | .float64 => 5
  | .string => 6
  | .binary => 7
  | _ => 8

/-- The integer type that takes in two others, of at most 128 bits with a sign. -/
def integerUnion (signed : Bool) (width : Nat) (signed' : Bool) (width' : Nat) : FrameType :=
  if signed = signed' then .integer signed (max width width')
  else if width < width' ∧ signed' then .integer true width'
  else if width' < width ∧ signed then .integer true width
  else .float64

/-- The type of a column that holds values of two types. -/
def union : FrameType → FrameType → FrameType
  | .null, type | type, .null => type
  | .integer signed width, .integer signed' width' => integerUnion signed width signed' width'
  | .list a, .list b => .list (union a b)
  | .record a, .record b => .record (a ++ b.filter fun (name, _) => !(a.any (·.1 == name)))
  | a, b => if a.rank < b.rank then b else a

end FrameType

end KeyedRelations
