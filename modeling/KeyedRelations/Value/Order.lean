import KeyedRelations.Value

/-!
# Equality and order of values

Numbers are compared by value whatever their kind, exactly and with truth values as zero and one;
a double that is not a number differs from everything and has no place in the order, but among the
items of composite values it is taken for itself if it has a mark. Texts and byte
strings are ordered by code point and byte. Sequences are decided by the first position at which
they differ, else by their lengths, and instants by time. Other kinds have no order, and asking for
one is an error that names the two kinds that met.
-/

namespace KeyedRelations

/-- The six comparisons. -/
inductive Operator where
  | eq | ne | lt | le | gt | ge
  deriving DecidableEq

namespace Operator

def symbol : Operator → String
  | .eq => "=="
  | .ne => "!="
  | .lt => "<"
  | .le => "<="
  | .gt => ">"
  | .ge => ">="

def all : List Operator := [.eq, .ne, .lt, .le, .gt, .ge]

def ofSymbol? (s : String) : Option Operator := all.find? (·.symbol == s)

/-- Whether a comparison holds of two things in the given order. -/
def holds : Operator → Ordering → Bool
  | .eq, o => o == .eq
  | .ne, o => o != .eq
  | .lt, o => o == .lt
  | .le, o => o != .gt
  | .gt, o => o == .gt
  | .ge, o => o != .lt

end Operator

/-- Two kinds of value that have no order between them, met under an operator. -/
structure Incomparable where
  operator : Operator
  left : String
  right : String
  deriving DecidableEq

namespace Value

/-- The numbers among the values. -/
inductive Number where
  | whole (n : Int)
  | double (x : Double)

def number? : Value → Option Number
  | .bool b => some (.whole (if b then 1 else 0))
  | .int n => some (.whole n)
  | .float x | .nan x _ => some (.double x)
  | _ => none

def Number.place? : Number → Option Extended
  | .whole n => some (.ofInt n)
  | .double x => x.place?

/-- The order of two numbers; `none` if one of them is not a number after all. -/
def Number.compare : Number → Number → Option Ordering
  | .whole a, .whole b => some (Ord.compare a b)
  | a, b => do return (← a.place?).compare (← b.place?)

/-- Equality of two values that are no numbers and hold no others, if both are of one such kind. -/
def sameAtom : Value → Value → Bool
  | .null, .null => true
  | .text a, .text b => a == b
  | .bytes a, .bytes b => a == b
  | .instant a, .instant b => a == b
  | .extension c a, .extension d b => c == d && a == b
  | .foreign a, .foreign b => a == b
  | a, b =>
    match a.number?, b.number? with
    | some m, some n => m.compare n == some .eq
    | _, _ => false

/-- Whether two values are one marked double. -/
def isSelf : Value → Value → Bool
  | .nan _ a, .nan _ b => a == b
  | _, _ => false

mutual

/-- Equality of values. -/
def same : Value → Value → Bool
  | .list as, .list bs => sameAll as bs
  | .tuple as, .tuple bs => sameAll as bs
  | .key as, .key bs => sameAll as bs
  | .dict as, .dict bs => as.length == bs.length && sameEntries as bs
  | a, b => sameAtom a b

/-- Equality of sequences, position by position. -/
def sameAll : List Value → List Value → Bool
  | [], [] => true
  | a :: as, b :: bs => (isSelf a b || same a b) && sameAll as bs
  | _, _ => false

/-- Whether every entry is among the others, under an equal key with an equal value. -/
def sameEntries : List (Value × Value) → List (Value × Value) → Bool
  | [], _ => true
  | (k, v) :: rest, bs =>
    (match bs.find? fun e => isSelf k e.1 || same k e.1 with
      | some e => isSelf v e.2 || same v e.2
      | none => false) && sameEntries rest bs

end

/-- The order of two values of simple kinds: `none` where a number is missing. -/
def compareAtoms (op : Operator) : Value → Value → Except Incomparable (Option Ordering)
  | .text a, .text b => .ok (some (Ord.compare a b))
  | .bytes a, .bytes b => .ok (some (compareOfLessAndEq a b))
  | .instant a, .instant b => .ok (some (Ord.compare a.micros b.micros))
  | a, b =>
    match a.number?, b.number? with
    | some m, some n => .ok (m.compare n)
    | _, _ => .error ⟨op, a.kindName, b.kindName⟩

mutual

/-- The order of two values, asked for on behalf of an operator. -/
def compare (op : Operator) : Value → Value → Except Incomparable (Option Ordering)
  | .list as, .list bs => compareAll op as bs
  | .tuple as, .tuple bs => compareAll op as bs
  | .key as, .key bs => compareAll op as bs
  | a, b => compareAtoms op a b

/-- The order of two sequences: that of the first two items that differ, else of the lengths. -/
def compareAll (op : Operator) : List Value → List Value → Except Incomparable (Option Ordering)
  | [], [] => .ok (some .eq)
  | [], _ :: _ => .ok (some .lt)
  | _ :: _, [] => .ok (some .gt)
  | a :: as, b :: bs =>
    if isSelf a b || same a b then compareAll op as bs else compare op a b

end

end Value

namespace Operator

/-- Whether a comparison holds between two values. Equality always has an answer. -/
def test (op : Operator) (a b : Value) : Except Incomparable Bool :=
  match op with
  | .eq => .ok (a.same b)
  | .ne => .ok (!a.same b)
  | op => do
    match ← a.compare op b with
    | some o => return op.holds o
    | none => return false

end Operator

end KeyedRelations
