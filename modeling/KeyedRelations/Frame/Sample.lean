import KeyedRelations.Fault
import KeyedRelations.Frame.Type
import KeyedRelations.Number.Brief
import KeyedRelations.Value.Order

/-!
# Values in the eyes of frames

A frame looks at every value before it holds it: `sample` gives its type, unless it has none, and
`sketch` its text in messages. The items of a list are of one type, as the values of a column are.
-/

namespace KeyedRelations

/-- Whether a column takes a value as it is. -/
def FrameType.admits (type : FrameType) (v : Value) : Bool :=
  match type, v with
  | _, .null | .object, _ => true
  | .integer signed width, .int n => holdsInteger signed width n
  | .float64, .float _ | .float32, .float _ | .float16, .float _ => true
  | .float64, .nan _ _ | .float32, .nan _ _ | .float16, .nan _ _ => true
  | .string, .text _ | .category, .text _ | .enumeration, .text _ => true
  | .binary, .bytes _ | .boolean, .bool _ | .record _, .dict _ => true
  | .list _, .list _ | .list _, .tuple _ => true
  | _, _ => false

namespace Value

def isNull : Value → Bool
  | .null => true
  | _ => false

/-- The text of bytes, at most sixty of them, of which letters, digits and ASCII punctuation stand
for themselves. -/
def sketchBytes (data : List UInt8) : String :=
  let shown := (data.take 60).map fun b =>
    if 0x20 < b.toNat ∧ b.toNat < 0x7f then String.singleton (Char.ofNat b.toNat)
    else "\\x" ++ String.ofList (Text.hexDigits 2 b.toNat)
  "b\"" ++ String.join shown ++ (if 60 < data.length then "\"…" else "\"")

mutual

/-- The text of a value in a message about a frame. -/
def sketch : Value → String
  | .null => "null"
  | .bool b => if b then "true" else "false"
  | .float x | .nan x _ => x.brief
  | .text s => "\"" ++ s ++ "\""
  | .bytes data => sketchBytes data
  | .list items | .tuple items => Text.abridged (sketchAll items)
  | .dict entries => "\x7b" ++ ",".intercalate (sketchEntries entries) ++ "\x7d"
  | v => v.plain

def sketchAll : List Value → List String
  | [] => []
  | v :: vs => v.sketch :: sketchAll vs

def sketchEntries : List (Value × Value) → List String
  | [] => []
  | (_, v) :: rest => v.sketch :: sketchEntries rest

end

/-- Refuses the first value that a column does not take as it is; the values come with their
types. -/
def checkAll (type : FrameType) (column : String) (samples : List (Value × FrameType)) :
    Except Fault Unit :=
  match samples.find? fun (v, _) => !type.admits v with
  | some (v, found) => .error (.frame (.value type.name found.name v.sketch column))
  | none => .ok ()

mutual

/-- The type of a value. -/
def sample : Value → Except Fault FrameType
  | .null => .ok .null
  | .bool _ => .ok .boolean
  | .int n =>
    match FrameType.ofInteger? n with
    | some type => .ok type
    | none => .error .integerWidth
  | .float _ | .nan _ _ => .ok .float64
  | .text _ => .ok .string
  | .bytes _ => .ok .binary
  | .list items | .tuple items => do
    let types ← sampleAll items
    let type := types.foldl .union .null
    checkAll type "" (items.zip types)
    return .list type
  | .dict entries => return .record (← sampleEntries entries)
  | _ => .ok .object

def sampleAll : List Value → Except Fault (List FrameType)
  | [] => .ok []
  | v :: vs => do
    let type ← v.sample
    return type :: (← sampleAll vs)

def sampleEntries : List (Value × Value) → Except Fault (List (String × FrameType))
  | [] => .ok []
  | (.text name, v) :: rest => do
    let type ← v.sample
    return (name, type) :: (← sampleEntries rest)
  | (k, _) :: _ => .error (.frame (.fieldName k.kindName))

end

end Value

end KeyedRelations
