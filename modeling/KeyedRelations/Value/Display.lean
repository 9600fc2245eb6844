import KeyedRelations.Number.Shortest
import KeyedRelations.Text.DecimalDigit
import KeyedRelations.Text.Quoted
import KeyedRelations.Value

/-!
# Values as text

A value has two texts: `shown` is unambiguous and quotes texts, `plain` leaves a text as it is and
writes a key as its values between braces. Inside sequences and dictionaries everything is shown.
-/

namespace KeyedRelations

/-- The texts, with commas between them, that stand for a tuple's items. -/
def tupleText : List String → String
  | [] => "()"
  | [item] => "(" ++ item ++ ",)"
  | items => "(" ++ ", ".intercalate items ++ ")"

def bracketed (items : List String) : String := "[" ++ ", ".intercalate items ++ "]"

def braced (items : List String) : String := "\x7b" ++ ", ".intercalate items ++ "\x7d"

namespace Value

mutual

/-- The unambiguous text of a value. -/
def shown : Value → String
  | .null => "None"
  | .bool true => "True"
  | .bool false => "False"
  | .int n => Text.decimal n
  | .float x | .nan x _ => x.text
  | .text s => Text.quoted s
  | .bytes data => Text.quotedBytes data
  | .list items => bracketed (shownAll items)
  | .tuple items => tupleText (shownAll items)
  | .dict entries => braced (shownEntries entries)
  | .key values => "KeyType(values=" ++ tupleText (shownAll values) ++ ")"
  | .instant t => t.shown
  | .extension code data =>
    "Ext(code=" ++ Text.decimal code ++ ", data=" ++ Text.quotedBytes data ++ ")"
  | .foreign x => x.shown

def shownAll : List Value → List String
  | [] => []
  | v :: vs => v.shown :: shownAll vs

def shownEntries : List (Value × Value) → List String
  | [] => []
  | (k, v) :: rest => (k.shown ++ ": " ++ v.shown) :: shownEntries rest

end

mutual

/-- The text of a value for a reader. -/
def plain : Value → String
  | .text s => s
  | .key values => braced (plainAll values)
  | .instant t => t.plain
  | v => v.shown

def plainAll : List Value → List String
  | [] => []
  | v :: vs => v.plain :: plainAll vs

end

end Value

end KeyedRelations
