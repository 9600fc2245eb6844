import KeyedRelations.Domain
import KeyedRelations.Frame.Fault
import KeyedRelations.Text.DecimalDigit
import KeyedRelations.Text.Quoted
import KeyedRelations.Value.Display
import KeyedRelations.Value.Order

/-!
# Faults

Everything that can be refused, by cause, and the one place where causes are put into words.
-/

namespace KeyedRelations

/-- Why a schema cannot be defined. -/
inductive DefinitionFault where
  | unknownDomain (name : String)
  | notAColumn (offered : Value)
  | notASchema (offered : Value)
  | duplicateAttribute (name : String)
  | emptyKey
  | keyOutside (names : List String)
  | domainCount (attributes domains : Nat)

/-- Why two schemas do not hold the same rows. -/
inductive MismatchFault where
  | arity (left right : Nat)
  | domain (position : Nat) (left right : Domain)

/-- Why a condition is refused. -/
inductive ConditionFault where
  | tokenCount (count : Nat)
  | operator (symbol : String)
  | literal (token : String)
  | literalAgainst (domain : Domain) (column : String)
  | listLengths
  | incomparable (left right : Domain)

/-- Why values do not fit a schema; `shown` is the text of a value. -/
inductive TypeFault where
  | valueCount (expected given : Nat)
  | value (position : Nat) (shown column : String) (domain : Domain)
  | keyCount (expected given : Nat)
  | keyValue (position : Nat) (shown : String) (domain : Domain)

/-- Why the file system refuses. -/
inductive FileFault where
  | notFound | notADirectory | isADirectory | alreadyExists | nameTooLong
  deriving DecidableEq

/-- Why a moment has no civil time. -/
inductive MomentFault where
  /-- Its seconds take more than 64 bits. -/
  | seconds
  /-- Its year is out of the calendar's reach. -/
  | calendar
  /-- Its year takes more than 32 bits. -/
  | year
  deriving DecidableEq

/-- Why a binary document is refused. -/
inductive DocumentFault where
  /-- It ends early, goes on after its end, or holds a byte that starts nothing. -/
  | malformed
  /-- It is well formed and does not fit the record it is read as. -/
  | illTyped
  /-- A text in it is not UTF-8. -/
  | invalidText
  deriving DecidableEq

/-- Why a snapshot cannot be saved or loaded. -/
inductive SnapshotFault where
  | notRegistered (name : String)
  | unreadable (path : String)
  | unwritable (name path : String)
  | corrupt (path : String)
  | invalid (name reason : String)

/-- Everything that can be refused. -/
inductive Fault where
  | definition (cause : DefinitionFault)
  | mismatch (cause : MismatchFault)
  | unresolved (names available : List String)
  | condition (text : String) (cause : ConditionFault)
  | typing (cause : TypeFault)
  | keyConflict (table : String) (key : List Value)
  | unsupported (operation : String)
  | snapshot (cause : SnapshotFault)
  | file (cause : FileFault)
  | document (cause : DocumentFault)
  /-- An integer that is too wide for a binary document or a frame. -/
  | integerWidth
  /-- A text, a list or a map that is too long for a binary document. -/
  | documentLength
  | incomparable (cause : Incomparable)
  /-- A position that a row does not have; `ofText` if the row is a text. -/
  | outOfRange (ofText : Bool)
  /-- A whole number that is no position of any row. -/
  | positionSize
  /-- Rows of two kinds that cannot be put together. -/
  | rowKinds (left right : String)
  | unhashable (kind : String)
  /-- A value that no plain document holds. -/
  | notPlain (kind : String)
  /-- A date in a year that is not one of 1 to 9999. -/
  | farYear (year : Int)
  | moment (cause : MomentFault)
  | noOperator (symbol : String)
  | noTable (name : String)
  | noAttribute (name : String)
  | foreignTable (name : String)
  | treeOrder (order : Int)
  /-- A numeral with more digits than are read. -/
  | numeralLength (digits : Nat)
  /-- An integer with more digits than are written. -/
  | integerLength
  /-- A frame with more columns than domains, or with fewer. -/
  | frameWidth (fewerDomains : Bool)
  | frame (cause : FrameFault)
  /-- A binary document with too many levels to be read. -/
  | nesting
  /-- A value with too many levels to be written as a binary document. -/
  | depth
  | unknownLevel (name : String)
  | negativeWidth
  /-- A line of a grid with more characters than can be counted. -/
  | lineLength
  /-- A line of a grid with more characters than can be held. -/
  | outOfMemory
  | embeddedNul
  | nulInPattern
  | joinArguments (shown : String)
  | joinKeywords (names : List String)
  | unknownKeyword (name : String)
  /-- A keyword for an argument that is given by its place already. -/
  | repeatedArgument (operation name : String)
  | notASequence (kind : String)
  | notAName (position : Nat) (kind : String)
  /-- The number of a table or a session that does not exist. -/
  | absent (number : Nat)

def commaList (names : List String) : String := ", ".intercalate names

def DefinitionFault.message : DefinitionFault → String
  | .unknownDomain name => "Unknown domain name: " ++ name
  | .notAColumn offered => "Can not build a column out of " ++ offered.shown
  | .notASchema offered => "Can not build a schema out of " ++ offered.shown
  | .duplicateAttribute name => "Duplicate attribute name " ++ name
  | .emptyKey => "Schema key can not be empty"
  | .keyOutside names => "Key attribute(s) " ++ commaList names ++ " not in schema"
  | .domainCount attributes domains =>
    "Got " ++ Text.decimal attributes ++ " attributes but " ++ Text.decimal domains ++ " domains"

def MismatchFault.message : MismatchFault → String
  | .arity left right =>
    "Schemas have different arity: " ++ Text.decimal left ++ " != " ++ Text.decimal right
  | .domain position left right =>
    "Schemas disagree on domain " ++ Text.decimal position ++ ": " ++ left.label ++ " != "
      ++ right.label

def ConditionFault.message : ConditionFault → String
  | .tokenCount count => "expected 3 tokens, got " ++ Text.decimal count
  | .operator symbol => "unsupported operator " ++ symbol
  | .literal token => "literal " ++ token ++ " is not a decimal integer"
  | .literalAgainst domain column =>
    "integer literal compared against " ++ domain.label ++ " attribute " ++ column
  | .listLengths => "join attribute lists differ in length"
  | .incomparable left right => "can not compare " ++ left.label ++ " with " ++ right.label

def TypeFault.message : TypeFault → String
  | .valueCount expected given =>
    "Expected " ++ Text.decimal expected ++ " values, got " ++ Text.decimal given
  | .value _ shown column domain =>
    "Value " ++ shown ++ " for " ++ column ++ " is not a " ++ domain.label
  | .keyCount expected given =>
    "Key has " ++ Text.decimal expected ++ " attribute(s), got " ++ Text.decimal given
      ++ " value(s)"
  | .keyValue _ shown domain => "Key value " ++ shown ++ " is not a " ++ domain.label

/-- What the file system or a document's reader has to say of the inner cause is left open. -/
def SnapshotFault.message : SnapshotFault → String
  | .notRegistered name => "No table named " ++ name ++ " registered in this session"
  | .unreadable path => "Could not read snapshot " ++ path ++ ": ..."
  | .unwritable name path => "Could not save " ++ name ++ " to " ++ path ++ ": ..."
  | .corrupt path => "Corrupt snapshot " ++ path ++ ": ..."
  | .invalid name reason => "Invalid snapshot for " ++ name ++ ": " ++ reason

def Incomparable.message (i : Incomparable) : String :=
  Text.quoted i.operator.symbol ++ " not supported between instances of " ++ Text.quoted i.left
    ++ " and " ++ Text.quoted i.right

namespace Fault

/-- The most digits of a numeral that is read and of an integer that is written. -/
def numeralLimit : Nat := 4300

/-- A fault in words. Faults of files, documents, moments and sizes are known by their cause
alone. -/
def message : Fault → String
  | .definition cause => cause.message
  | .mismatch cause => cause.message
  | .unresolved names available =>
    "Unresolved attribute(s) " ++ commaList names ++ ", available: " ++ commaList available
  | .condition text cause => "Malformed condition \"" ++ text ++ "\": " ++ cause.message
  | .typing cause => cause.message
  | .keyConflict table key =>
    "Duplicate key " ++ (Value.key key).plain ++ " in table " ++ table
  | .unsupported operation => operation ++ " is not available"
  | .snapshot cause => cause.message
  | .file _ | .document _ | .integerWidth | .documentLength | .moment _ | .lineLength
  | .outOfMemory => ""
  | .incomparable cause => cause.message
  | .outOfRange ofText => (if ofText then "string" else "tuple") ++ " index out of range"
  | .positionSize => "cannot fit 'int' into an index-sized integer"
  | .rowKinds left right =>
    "can only concatenate " ++ left ++ " (not \"" ++ right ++ "\") to " ++ left
  | .unhashable kind => "unhashable type: " ++ Text.quoted kind
  | .notPlain kind => "Encoding objects of type " ++ kind ++ " is unsupported"
  | .farYear year => "year " ++ Text.decimal year ++ " is out of range"
  | .noOperator symbol => Text.quoted symbol
  | .noTable name => Text.quoted name
  | .noAttribute name =>
    "Session has no attribute " ++ Text.quoted name ++ " (and no table with that name)"
  | .foreignTable name => "Table " ++ name ++ " belongs to a different session"
  | .treeOrder order => "B-tree order must be >= 2, got " ++ Text.decimal order
  | .numeralLength digits =>
    "Exceeds the limit (" ++ Text.decimal numeralLimit
      ++ " digits) for integer string conversion: value has " ++ Text.decimal digits
      ++ " digits; use sys.set_int_max_str_digits() to increase the limit"
  | .integerLength =>
    "Exceeds the limit (" ++ Text.decimal numeralLimit
      ++ " digits) for integer string conversion; use sys.set_int_max_str_digits() to increase"
      ++ " the limit"
  | .frameWidth fewerDomains =>
    "zip() argument 2 is " ++ (if fewerDomains then "shorter" else "longer")
      ++ " than argument 1"
  | .frame cause => cause.message
  | .nesting => "maximum recursion depth exceeded while deserializing an object"
  | .depth => "maximum recursion depth exceeded while serializing an object"
  | .unknownLevel name => "Unknown level: " ++ Text.quoted name
  | .negativeWidth => "Sign not allowed in string format specifier"
  | .embeddedNul => "embedded null byte"
  | .nulInPattern => "embedded null character"
  | .joinArguments shown => "No join variant accepts " ++ shown
  | .joinKeywords names =>
    "Only the natural join accepts keyword arguments, got "
      ++ bracketed (names.map Text.quoted)
  | .unknownKeyword name =>
    "Table.natural_join() got an unexpected keyword argument " ++ Text.quoted name
  | .repeatedArgument operation name =>
    "Table." ++ operation ++ "() got multiple values for argument " ++ Text.quoted name
  | .notASequence kind => Text.quoted kind ++ " object is not iterable"
  | .notAName position kind =>
    "sequence item " ++ Text.decimal position ++ ": expected str instance, " ++ kind
      ++ " found"
  | .absent number => "Nothing has the number " ++ Text.decimal number

/-- The position that a fault points at, for the causes that may have one. -/
def position? : Fault → Option Nat
  | .mismatch (.domain position _ _) => some position
  | .typing (.value position _ _ _) => some position
  | .typing (.keyValue position _ _) => some position
  | _ => none

/-- Whether the fault is a row's own: it does not fit its table, or its key is taken. -/
def rejectsRow : Fault → Bool
  | .typing _ | .keyConflict _ _ => true
  | _ => false

end Fault

end KeyedRelations
