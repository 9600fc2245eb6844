import KeyedRelations.Fault
import KeyedRelations.Index.Node

/-!
# The primary index

A B-tree from keys to rows in which no two keys are the same. Every node holds at most
`2 * order - 1` entries, and every node but the root at least `order - 1`.
-/

namespace KeyedRelations

open Index (Node)

/-- A B-tree of a fixed order with the number of its entries. -/
structure PrimaryIndex (κ ρ : Type) where
  order : Nat
  two_le_order : 2 ≤ order
  height : Nat
  root : Node κ ρ height
  size : Nat

/-- Why an insertion is refused. -/
inductive InsertFault (ε : Type) where
  | taken
  | comparison (cause : ε)

namespace PrimaryIndex

variable {κ ρ ε : Type}

/-- The index of a given order without entries. -/
def ofOrder (order : Nat) (h : 2 ≤ order) : PrimaryIndex κ ρ := ⟨order, h, 0, Node.empty, 0⟩

/-- The index without entries, if the order is one of a B-tree. -/
def ofOrder? (order : Int) : Except Fault (PrimaryIndex κ ρ) :=
  if h : 2 ≤ order.toNat then .ok (ofOrder order.toNat h) else .error (.treeOrder order)

/-- The index that a table starts with. -/
def empty : PrimaryIndex κ ρ := ofOrder 32 (by decide)

variable (index : PrimaryIndex κ ρ)

/-- The number of levels. -/
def depth : Nat := index.height + 1

/-- All entries from left to right. -/
def toList : List (κ × ρ) := index.root.toList

/-- The row of a key. -/
def find? (order : KeyOrder κ ε) (key : κ) : Except ε (Option ρ) := index.root.find? order key

/-- Whether there is a row under a key. -/
def contains (order : KeyOrder κ ε) (key : κ) : Except ε Bool :=
  (index.find? order key).map (·.isSome)

/-- The entries with keys from `low` to `high`, in order; a missing end is open. -/
def range (order : KeyOrder κ ε) (low high : Option κ) : Except ε (List (κ × ρ)) :=
  index.root.range order low high

/-- All entries, in order. -/
def items (order : KeyOrder κ ε) : Except ε (List (κ × ρ)) := index.range order none none

/-- The keys of all entries, in order. -/
def keys (order : KeyOrder κ ε) : Except ε (List κ) :=
  (index.items order).map fun es => es.map (·.1)

/-- Grows by a level if the root is full, so that the root has room. -/
def withRoom : PrimaryIndex κ ρ :=
  match if index.root.isFull index.order then index.root.split? index.order else none with
  | none => index
  | some (left, middle, right) =>
    { index with height := index.height + 1, root := Node.plug left [(middle, right)] [] }

/-- Adds an entry under a new key. When the key is taken nothing changes; when keys cannot be
compared no entry is added, though nodes may have been split. -/
def insert (order : KeyOrder κ ε) (key : κ) (row : ρ) :
    PrimaryIndex κ ρ × Except (InsertFault ε) Unit :=
  match index.find? order key with
  | .error e => (index, .error (.comparison e))
  | .ok (some _) => (index, .error .taken)
  | .ok none =>
    let grown := index.withRoom
    match grown.root.insert order grown.order key row with
    | (root, .ok ()) => ({ grown with root, size := grown.size + 1 }, .ok ())
    | (root, .error e) => ({ grown with root }, .error (.comparison e))

end PrimaryIndex

end KeyedRelations
