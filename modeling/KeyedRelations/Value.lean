import KeyedRelations.Number.Double
import KeyedRelations.Value.Foreign

/-!
# Values

What a row, a key or a document can hold. Rows of a table hold only the scalars that a domain
accepts; the other constructors occur in what callers offer, in frames and in documents that are
read.
-/

namespace KeyedRelations

inductive Value where
  | null
  | bool (b : Bool)
  | int (n : Int)
  | float (x : Double)
  /-- A double that is not a number, with a mark by which it is known again. -/
  | nan (x : Double) (mark : List Nat)
  | text (s : String)
  | bytes (data : List UInt8)
  | list (items : List Value)
  | tuple (items : List Value)
  | dict (entries : List (Value × Value))
  /-- A composite key. -/
  | key (values : List Value)
  | instant (t : Instant)
  /-- Data of an application's own type in a binary document. -/
  | extension (code : Int) (data : List UInt8)
  | foreign (x : Foreign)

instance : Inhabited Value := ⟨.null⟩

namespace Value

/-- The name of the kind of a value, as error messages give it. -/
def kindName : Value → String
  | .null => "NoneType"
  | .bool _ => "bool"
  | .int _ => "int"
  | .float _ | .nan _ _ => "float"
  | .text _ => "str"
  | .bytes _ => "bytes"
  | .list _ => "list"
  | .tuple _ => "tuple"
  | .dict _ => "dict"
  | .key _ => "KeyType"
  | .instant _ => "datetime.datetime"
  | .extension _ _ => "Ext"
  | .foreign x => x.kindName

end Value

end KeyedRelations
