import KeyedRelations.MsgPack.Encode
import KeyedRelations.Value.Dictionary

/-!
# Reading binary documents

A reader takes what it reads off the front of the bytes. Documents are read in one pass from left
to right, so of two faults the one further left is reported. A value starts with a `Head`: a
scalar is complete with it, an array or a map has its items behind it. An extension of code -1 is an
instant wherever a value of any type is read. Values with too many levels are refused, also where
they are passed over.
-/

namespace KeyedRelations

namespace MsgPack

/-- Reads something off the front of the bytes. -/
abbrev Reader (α : Type) := StateT Bytes (Except Fault) α

/-- What stands at the start of a value. -/
inductive Head where
  | null
  | bool (b : Bool)
  | int (n : Int)
  | float (x : Double)
  | text (data : Bytes)
  | bytes (data : Bytes)
  | array (size : Nat)
  | map (size : Nat)
  | extension (code : Int) (data : Bytes)

/-- The number that bytes write, the highest first. -/
def ofBigEndian (bytes : Bytes) : Nat := bytes.foldl (fun n b => 256 * n + b.toNat) 0

/-- The whole number that `n` stands for in two's complement of so many bytes. -/
def ofTwosComplement (width n : Nat) : Int :=
  if n < twoTo (8 * width) / 2 then (n : Int) else (n : Int) - twoTo (8 * width)

/-- The seconds and nanoseconds of an instant, from the data of its extension. -/
def instantParts (data : Bytes) : Option (Int × Nat) :=
  let n := ofBigEndian data
  match data.length with
  | 4 => some ((n : Int), 0)
  | 8 => some (((n % 0x400000000 : Nat) : Int), n / 0x400000000)
  | 12 => some (ofTwosComplement 8 (n % 0x10000000000000000), n / 0x10000000000000000)
  | _ => none

namespace Reader

def malformed {α : Type} : Reader α := throw (.document .malformed)

def illTyped {α : Type} : Reader α := throw (.document .illTyped)

def byte : Reader Nat := fun
  | [] => .error (.document .malformed)
  | b :: rest => .ok (b.toNat, rest)

/-- The next `n` bytes. -/
def take (n : Nat) : Reader Bytes := fun bytes =>
  if (bytes.take n).length = n then .ok (bytes.take n, bytes.drop n)
  else .error (.document .malformed)

/-- The next `width` bytes as a number, the highest first. -/
def number (width : Nat) : Reader Nat := do return ofBigEndian (← take width)

/-- The next `width` bytes as a number in two's complement. -/
def signed (width : Nat) : Reader Int := do return ofTwosComplement width (← number width)

def extension (size : Nat) : Reader Head := do
  let code ← signed 1
  return .extension code (← take size)

/-- A head, given its lead byte. -/
def headOf (lead : Nat) : Reader Head :=
  if lead < 0x80 then return .int lead
  else if lead < 0x90 then return .map (lead - 0x80)
  else if lead < 0xa0 then return .array (lead - 0x90)
  else if lead < 0xc0 then do return .text (← take (lead - 0xa0))
  else if 0xe0 ≤ lead then return .int ((lead : Int) - 0x100)
  else
    match lead with
    | 0xc0 => return .null
    | 0xc2 => return .bool false
    | 0xc3 => return .bool true
    | 0xc4 => do return .bytes (← take (← number 1))
    | 0xc5 => do return .bytes (← take (← number 2))
    | 0xc6 => do return .bytes (← take (← number 4))
    | 0xc7 => do extension (← number 1)
    | 0xc8 => do extension (← number 2)
    | 0xc9 => do extension (← number 4)
    | 0xca => do return .float (Double.ofSingleBits (← number 4))
    | 0xcb => do return .float (Double.ofBits (← number 8))
    | 0xcc => do return .int (← number 1)
    | 0xcd => do return .int (← number 2)
    | 0xce => do return .int (← number 4)
    | 0xcf => do return .int (← number 8)
    | 0xd0 => do return .int (← signed 1)
    | 0xd1 => do return .int (← signed 2)
    | 0xd2 => do return .int (← signed 4)
    | 0xd3 => do return .int (← signed 8)
    | 0xd4 => extension 1
    | 0xd5 => extension 2
    | 0xd6 => extension 4
    | 0xd7 => extension 8
    | 0xd8 => extension 16
    | 0xd9 => do return .text (← take (← number 1))
    | 0xda => do return .text (← take (← number 2))
    | 0xdb => do return .text (← take (← number 4))
    | 0xdc => do return .array (← number 2)
    | 0xdd => do return .array (← number 4)
    | 0xde => do return .map (← number 2)
    | 0xdf => do return .map (← number 4)
    | _ => malformed

def head : Reader Head := do headOf (← byte)

/-- A text from its bytes. -/
def utf8 (data : Bytes) : Reader String :=
  match String.fromUTF8? ⟨data.toArray⟩ with
  | some s => return s
  | none => throw (.document .invalidText)

/-- Reads `n` things one after the other. -/
def many {α : Type} (read : Reader α) : Nat → Reader (List α)
  | 0 => return []
  | n + 1 => do
    let x ← read
    return x :: (← many read n)

/-- The instant of an extension's data, rounded to microseconds. -/
def instant (data : Bytes) : Reader Instant := do
  match instantParts data with
  | none => illTyped
  | some (seconds, nanoseconds) =>
    if 999999999 < nanoseconds ∨ seconds < Instant.firstSecond
        ∨ Instant.lastSecond + 1 < seconds then
      illTyped
    let t : Instant := ⟨1000000 * seconds + ((nanoseconds + 500) / 1000 : Nat)⟩
    if Instant.lastSecond < t.seconds then throw (.farYear t.civil.year)
    return t

/-- Reads `n` entries into a dictionary. -/
def entries (readKey readValue : Reader Value) :
    Nat → List (Value × Value) → Reader (List (Value × Value))
  | 0, done => return done
  | n + 1, done => do
    let k ← readKey
    let v ← readValue
    if k.unhashableKind?.isSome then malformed
    entries readKey readValue n (Value.setEntry k v done)

/-- A value with fewer levels than the first argument says. Among the keys of a dictionary (`isKey`)
an array is a tuple. -/
def valueWithin : (levels : Nat) → (isKey : Bool) → Reader Value
  | 0, _ => throw .nesting
  | levels + 1, isKey => do
    match ← head with
    | .null => return .null
    | .bool b => return .bool b
    | .int n => return .int n
    | .float x => return .float x
    | .text data => return .text (← utf8 data)
    | .bytes data => return .bytes data
    | .array n =>
      let items ← many (valueWithin levels isKey) n
      return if isKey then .tuple items else .list items
    | .map n => return .dict (← entries (valueWithin levels true) (valueWithin levels false) n [])
    | .extension code data =>
      if code = instantCode then return .instant (← instant data) else return .extension code data

/-- A value of any type with room for so many levels. -/
def value (levels : Nat) : Reader Value := valueWithin (levels + 1) false

/-- Passes over a value with fewer levels than the argument says. -/
def skipWithin : (levels : Nat) → Reader Unit
  | 0 => throw .nesting
  | levels + 1 => do
    match ← head with
    | .array n => discard (many (skipWithin levels) n)
    | .map n => discard (many (skipWithin levels) (2 * n))
    | _ => return ()

/-- Passes over a value without reading its texts. -/
def skip (levels : Nat) : Reader Unit := skipWithin (levels + 1)

def text : Reader String := do
  match ← head with
  | .text data => utf8 data
  | _ => illTyped

/-- A text that is one of a set, recognised by `ofText?`. -/
def word {α : Type} (ofText? : String → Option α) : Reader α := do
  match ofText? (← text) with
  | some x => return x
  | none => illTyped

def list {α : Type} (item : Reader α) : Reader (List α) := do
  match ← head with
  | .array n => many item n
  | _ => illTyped

/-- The name of a field, as bytes. -/
def fieldName : Reader Bytes := do
  let lead ← byte
  if (0xa0 ≤ lead ∧ lead < 0xc0) ∨ (0xd9 ≤ lead ∧ lead ≤ 0xdb) then
    match ← headOf lead with
    | .text data => return data
    | _ => illTyped
  else illTyped

/-- Reads the `n` fields of a record into what is known of it. A field that `known` does not name
is passed over; of a repeated field the last one counts. -/
def fields {σ : Type} (levels : Nat) (known : List (String × (σ → Reader σ))) :
    Nat → σ → Reader σ
  | 0, found => return found
  | n + 1, found => do
    let name ← fieldName
    match known.find? fun field => textBytes field.1 == name with
    | some (_, read) => fields levels known n (← read found)
    | none => do
      skip levels
      fields levels known n found

/-- A record whose fields are gathered from `start` and complete if `finish` says so. -/
def record {σ α : Type} (levels : Nat) (start : σ) (known : List (String × (σ → Reader σ)))
    (finish : σ → Option α) : Reader α := do
  match ← head with
  | .map n =>
    match finish (← fields levels known n start) with
    | some x => return x
    | none => illTyped
  | _ => illTyped

/-- Reads a whole document: nothing may be left over. -/
def readAll {α : Type} (read : Reader α) (bytes : Bytes) : Except Fault α := do
  match ← read.run bytes with
  | (x, []) => return x
  | (_, _ :: _) => throw (.document .malformed)

end Reader

end MsgPack

end KeyedRelations
