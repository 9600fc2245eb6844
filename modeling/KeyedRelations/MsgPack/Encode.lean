import KeyedRelations.Fault

/-!
# Writing binary documents

Values are written in the MessagePack format, each in the shortest form that its head allows;
doubles always take eight bytes. An integer that no head can hold is refused, and so is a length. A
composite key is written as the record of its values, and an instant as an extension of code -1 with
its seconds and nanoseconds.

Writing and reading descend from arrays and maps to their parts, and the interpreter has room for so
many levels only. How many that are depends on where it is called, so they are a parameter.
-/

namespace KeyedRelations.MsgPack

abbrev Bytes := List UInt8

/-- The levels of arrays and maps that there is room for: in a whole record that is written, and in a
value of any type that is read. A record of scalars has room always. -/
structure Room where
  writing : Nat
  reading : Nat
  scalars_le : 4 ≤ writing

/-- The last `width` bytes of a number, the highest first. -/
def bigEndian : (width : Nat) → Nat → Bytes
  | 0, _ => []
  | width + 1, n => UInt8.ofNat (n / twoTo (8 * width) % 256) :: bigEndian width n

/-- A lead byte followed by a number. -/
def lead (code : Nat) (width n : Nat) : Bytes := UInt8.ofNat code :: bigEndian width n

/-- The head of a text with as many bytes. -/
def textHead (n : Nat) : Bytes :=
  if n < 0x20 then [UInt8.ofNat (0xa0 + n)]
  else if n < 0x100 then lead 0xd9 1 n
  else if n < 0x10000 then lead 0xda 2 n
  else lead 0xdb 4 n

def bytesHead (n : Nat) : Bytes :=
  if n < 0x100 then lead 0xc4 1 n
  else if n < 0x10000 then lead 0xc5 2 n
  else lead 0xc6 4 n

def arrayHead (n : Nat) : Bytes :=
  if n < 0x10 then [UInt8.ofNat (0x90 + n)]
  else if n < 0x10000 then lead 0xdc 2 n
  else lead 0xdd 4 n

def mapHead (n : Nat) : Bytes :=
  if n < 0x10 then [UInt8.ofNat (0x80 + n)]
  else if n < 0x10000 then lead 0xde 2 n
  else lead 0xdf 4 n

/-- The head of an extension; five sizes have a lead byte of their own. -/
def extensionHead (code : Int) (n : Nat) : Bytes :=
  let size :=
    match n with
    | 1 => lead 0xd4 0 0
    | 2 => lead 0xd5 0 0
    | 4 => lead 0xd6 0 0
    | 8 => lead 0xd7 0 0
    | 16 => lead 0xd8 0 0
    | n =>
      if n < 0x100 then lead 0xc7 1 n
      else if n < 0x10000 then lead 0xc8 2 n
      else lead 0xc9 4 n
  size ++ bigEndian 1 (code % 256).toNat

/-- An integer in the shortest form; negative ones in two's complement. -/
def encodeInt (n : Int) : Except Fault Bytes :=
  if 0 ≤ n then
    let m := n.toNat
    if m < 0x80 then .ok [UInt8.ofNat m]
    else if m < 0x100 then .ok (lead 0xcc 1 m)
    else if m < 0x10000 then .ok (lead 0xcd 2 m)
    else if m < 0x100000000 then .ok (lead 0xce 4 m)
    else if m < 0x10000000000000000 then .ok (lead 0xcf 8 m)
    else .error .integerWidth
  else if -0x20 ≤ n then .ok [UInt8.ofNat (n + 0x100).toNat]
  else if -0x80 ≤ n then .ok (lead 0xd0 1 (n + 0x100).toNat)
  else if -0x8000 ≤ n then .ok (lead 0xd1 2 (n + 0x10000).toNat)
  else if -0x80000000 ≤ n then .ok (lead 0xd2 4 (n + 0x100000000).toNat)
  else if -0x8000000000000000 ≤ n then .ok (lead 0xd3 8 (n + 0x10000000000000000).toNat)
  else .error .integerWidth

/-- The code of the extension that holds an instant. -/
def instantCode : Int := -1

/-- An instant in the shortest of three forms: seconds in 32 bits, seconds in 34 bits behind
nanoseconds in 30, or seconds in two's complement behind nanoseconds. -/
def encodeInstant (t : Instant) : Bytes :=
  let nanoseconds := 1000 * t.fraction
  let seconds := t.seconds.toNat
  if t.seconds < 0 ∨ 0x400000000 ≤ seconds then
    extensionHead instantCode 12 ++ bigEndian 4 nanoseconds
      ++ bigEndian 8 (t.seconds % 0x10000000000000000).toNat
  else if nanoseconds = 0 ∧ seconds < 0x100000000 then
    extensionHead instantCode 4 ++ bigEndian 4 seconds
  else extensionHead instantCode 8 ++ bigEndian 8 (0x400000000 * nanoseconds + seconds)

/-- The bytes of a text in UTF-8. -/
def textBytes (s : String) : Bytes := s.toUTF8.data.toList

def encodeText (s : String) : Bytes := textHead (textBytes s).length ++ textBytes s

/-- Refuses a length that takes more than four bytes. -/
def checkLength (n : Nat) : Except Fault Unit :=
  if n < 0x100000000 then .ok () else .error .documentLength

mutual

/-- The document of a value with room for so many levels. -/
def encode (levels : Nat) : Value → Except Fault Bytes
  | .null => .ok [0xc0]
  | .bool false => .ok [0xc2]
  | .bool true => .ok [0xc3]
  | .int n => encodeInt n
  | .float x | .nan x _ => .ok (lead 0xcb 8 x.bits.toNat)
  | .text s => do
    checkLength (textBytes s).length
    return encodeText s
  | .bytes data => do
    checkLength data.length
    return bytesHead data.length ++ data
  | .list items | .tuple items => do
    checkLength items.length
    return arrayHead items.length ++ (← encodeAll levels items)
  | .dict entries => do
    checkLength entries.length
    return mapHead entries.length ++ (← encodeEntries levels entries)
  | .key values => do
    if levels = 0 then throw .depth
    checkLength values.length
    return mapHead 1 ++ encodeText "values" ++ arrayHead values.length
      ++ (← encodeAll (levels - 1) values)
  | .instant t => .ok (encodeInstant t)
  | .extension code data => do
    checkLength data.length
    return extensionHead code data.length ++ data
  | .foreign x => .error (.notPlain x.kindName)

/-- The documents of the items of an array; an array without items takes no level. -/
def encodeAll : (levels : Nat) → List Value → Except Fault Bytes
  | _, [] => .ok []
  | 0, _ :: _ => .error .depth
  | levels + 1, v :: vs => do return (← encode levels v) ++ (← encodeAll (levels + 1) vs)

def encodeEntries : (levels : Nat) → List (Value × Value) → Except Fault Bytes
  | _, [] => .ok []
  | 0, _ :: _ => .error .depth
  | levels + 1, (k, v) :: rest => do
    return (← encode levels k) ++ (← encode levels v) ++ (← encodeEntries (levels + 1) rest)

end

end KeyedRelations.MsgPack
