import KeyedRelations.Value

/-!
# Domains

Every column has one of eight domains. A domain says which values a column holds, under which names
the column can be declared, and with which other columns it can be compared.
-/

namespace KeyedRelations

/-- The scalar kind of a column. -/
inductive Domain where
  | integer64 | integer32 | integer16 | integer8
  | float64 | float32
  | character | string
  deriving DecidableEq

/-- What decides whether two domains are comparable. -/
inductive DomainKind where
  | numeric | text
  deriving DecidableEq

def DomainKind.name : DomainKind → String
  | .numeric => "numeric"
  | .text => "text"

namespace Domain

def all : List Domain :=
  [.integer64, .integer32, .integer16, .integer8, .float64, .float32, .character, .string]

/-- The short name, which documents use. -/
def tag : Domain → String
  | .integer64 => "i64"
  | .integer32 => "i32"
  | .integer16 => "i16"
  | .integer8 => "i8"
  | .float64 => "f64"
  | .float32 => "f32"
  | .character => "char"
  | .string => "string"

/-- The full name, which messages use. -/
def label : Domain → String
  | .integer64 => "Integer64"
  | .integer32 => "Integer32"
  | .integer16 => "Integer16"
  | .integer8 => "Integer8"
  | .float64 => "Float64"
  | .float32 => "Float32"
  | .character => "Character"
  | .string => "String"

/-- A third name without a width, where there is one. -/
def plainName? : Domain → Option String
  | .integer64 => some "long"
  | .integer32 => some "integer"
  | .integer16 => some "short"
  | .integer8 => some "byte"
  | .float64 => some "double"
  | .float32 => some "float"
  | .character | .string => none

/-- The names that declare a domain, in lower case. -/
def names (d : Domain) : List String := d.tag :: d.label.toLower :: d.plainName?.toList

/-- The domain of a name, in any mixture of cases. All names are ASCII, and no character outside
ASCII has an ASCII letter of a name as its lower case. -/
def ofName? (name : String) : Option Domain := all.find? (·.names.contains name.toLower)

def ofTag? (tag : String) : Option Domain := all.find? (·.tag == tag)

def kind : Domain → DomainKind
  | .character | .string => .text
  | _ => .numeric

def comparableWith (d e : Domain) : Bool := d.kind == e.kind

/-- The width of an integer domain. -/
def bits? : Domain → Option Nat
  | .integer64 => some 64
  | .integer32 => some 32
  | .integer16 => some 16
  | .integer8 => some 8
  | _ => none

/-- The magnitude of the greatest finite single-precision number, as a pattern. -/
def singleMaxBits : Nat := 0x47efffffe0000000

/-- Whether a column of the domain holds the value. Truth values are no integers, and a
single-precision column holds every double within its range. -/
def accepts (d : Domain) (v : Value) : Bool :=
  match d, v with
  | .string, .text _ => true
  | .character, .text s => s.length == 1
  | .float64, .float _ => true
  | .float32, .float x => !x.isFinite || x.magnitudeBits ≤ singleMaxBits
  | d, .int n =>
    match d.bits? with
    | some bits => -(twoTo (bits - 1) : Int) ≤ n && n < twoTo (bits - 1)
    | none => false
  | _, _ => false

end Domain

end KeyedRelations
