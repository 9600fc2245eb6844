import KeyedRelations.Index.Search

/-!
# Nodes of a B-tree

A node is either a leaf with entries or a branch with entries and, around them, subtrees of one
height less. The height is part of the type, so all leaves are equally deep, and a branch is stored
as its first subtree and the entries paired with the subtree on their right, so it has one subtree
more than entries.

A branch is opened at one of its subtrees into a `Focus` and closed again by `plug`; descending
replaces what the focus holds. An insertion that fails on the way down leaves behind the nodes
it has split up to there.
-/

namespace KeyedRelations.Index

/-- The nodes whose leaves lie `h` levels below them. -/
def Node (κ ρ : Type) : Nat → Type
  | 0 => List (κ × ρ)
  | h + 1 => Node κ ρ h × List ((κ × ρ) × Node κ ρ h)

variable {κ ρ ε : Type}

namespace Node

/-- A leaf without entries. -/
def empty : Node κ ρ 0 := ([] : List (κ × ρ))

/-- The entries that a node holds itself. -/
def entries : {h : Nat} → Node κ ρ h → List (κ × ρ)
  | 0, es => es
  | _ + 1, (_, rest) => rest.map (·.1)

def keys {h : Nat} (n : Node κ ρ h) : List κ := n.entries.map (·.1)

/-- All entries of a node and below it, from left to right. -/
def toList : {h : Nat} → Node κ ρ h → List (κ × ρ)
  | 0, es => es
  | _ + 1, (first, rest) => first.toList ++ rest.flatMap fun (e, child) => e :: child.toList

end Node

/-- A branch opened at one of its subtrees: what stands to the left of it, each subtree with the
entry on its right, the subtree itself, and what stands to the right of it. -/
structure Focus (κ ρ : Type) (h : Nat) where
  before : List (Node κ ρ h × (κ × ρ))
  child : Node κ ρ h
  after : List ((κ × ρ) × Node κ ρ h)

namespace Node

/-- Opens a branch at its subtree number `i`, or at the last one. -/
def focus {h : Nat} (first : Node κ ρ h) :
    (rest : List ((κ × ρ) × Node κ ρ h)) → (i : Nat) → Focus κ ρ h
  | rest, 0 => ⟨[], first, rest⟩
  | [], _ + 1 => ⟨[], first, []⟩
  | (e, child) :: rest, i + 1 =>
    let f := focus child rest i
    ⟨(first, e) :: f.before, f.child, f.after⟩

/-- The branch with the given subtrees and entries. -/
def plug {h : Nat} (child : Node κ ρ h) (after : List ((κ × ρ) × Node κ ρ h)) :
    List (Node κ ρ h × (κ × ρ)) → Node κ ρ (h + 1)
  | [] => (child, after)
  | (first, e) :: before =>
    let (next, rest) := plug child after before
    (first, (e, next) :: rest)

/-- Cuts a node at its entry number `t - 1`: the node before, the entry, and the node behind it. -/
def split? (t : Nat) : {h : Nat} → Node κ ρ h → Option (Node κ ρ h × (κ × ρ) × Node κ ρ h)
  | 0, es =>
    match es.drop (t - 1) with
    | [] => none
    | e :: right => some (es.take (t - 1), e, right)
  | _ + 1, (first, rest) =>
    match rest.drop (t - 1) with
    | [] => none
    | (e, child) :: right => some ((first, rest.take (t - 1)), e, (child, right))

/-- The entry with an equal key, sought from the node downwards. -/
def find? (order : KeyOrder κ ε) (key : κ) : {h : Nat} → Node κ ρ h → Except ε (Option ρ)
  | 0, (es : List (κ × ρ)) => do
    let i ← firstNotBelow order (es.map (·.1)) key
    match es[i]? with
    | some (k, row) => return if order.same k key then some row else none
    | none => return none
  | _ + 1, (first, rest) => do
    let i ← firstNotBelow order (rest.map (·.1.1)) key
    match rest[i]? with
    | some ((k, row), _) =>
      if order.same k key then return some row else find? order key (focus first rest i).child
    | none => find? order key (focus first rest i).child

/-- A node is full with `2 * t - 1` entries. -/
def isFull (t : Nat) {h : Nat} (n : Node κ ρ h) : Bool := n.entries.length == 2 * t - 1

/-- Puts an entry below a node that is not full, splitting full nodes before descending into them.
The node as it stands in the end comes with the failure of a comparison, if there was one. -/
def insert (order : KeyOrder κ ε) (t : Nat) (key : κ) (row : ρ) :
    {h : Nat} → Node κ ρ h → Node κ ρ h × Except ε Unit
  | 0, es =>
    match firstAbove order (es.map (·.1)) key with
    | .error e => (es, .error e)
    | .ok i => (es.insertIdx i (key, row), .ok ())
  | _ + 1, (first, rest) =>
    match firstAbove order (rest.map (·.1.1)) key with
    | .error e => ((first, rest), .error e)
    | .ok i =>
      let f := focus first rest i
      match if f.child.isFull t then f.child.split? t else none with
      | none =>
        let (child, result) := insert order t key row f.child
        (plug child f.after f.before, result)
      | some (left, middle, right) =>
        match order.greater key middle.1 with
        | .error e => (plug left ((middle, right) :: f.after) f.before, .error e)
        | .ok true =>
          let (child, result) := insert order t key row right
          (plug left ((middle, child) :: f.after) f.before, result)
        | .ok false =>
          let (child, result) := insert order t key row left
          (plug child ((middle, right) :: f.after) f.before, result)

/-- Whether a key lies above the upper end of a range. -/
def exceeds (order : KeyOrder κ ε) (high : Option κ) (k : κ) : Except ε Bool :=
  match high with
  | none => .ok false
  | some key => order.greater k key

/-- The entries of a leaf up to the first one above the range. -/
def scanLeaf (order : KeyOrder κ ε) (high : Option κ) : List (κ × ρ) → Except ε (List (κ × ρ))
  | [] => .ok []
  | e :: rest => do
    if ← exceeds order high e.1 then return []
    return e :: (← scanLeaf order high rest)

/-- The entries of separators and the subtrees on their right, which `scan` reads, up to the first
separator above the range. -/
def scanBranch {h : Nat} (order : KeyOrder κ ε) (high : Option κ)
    (scan : Node κ ρ h → Except ε (List (κ × ρ))) :
    List ((κ × ρ) × Node κ ρ h) → Except ε (List (κ × ρ))
  | [] => .ok []
  | (e, child) :: rest => do
    if ← exceeds order high e.1 then return []
    let inside ← scan child
    return e :: inside ++ (← scanBranch order high scan rest)

/-- Where a range begins in a node. -/
def rangeStart (order : KeyOrder κ ε) (low : Option κ) (keys : List κ) : Except ε Nat :=
  match low with
  | none => .ok 0
  | some key => firstNotBelow order keys key

/-- The entries with keys from `low` to `high`, in order; a missing end is open. -/
def range (order : KeyOrder κ ε) (low high : Option κ) :
    {h : Nat} → Node κ ρ h → Except ε (List (κ × ρ))
  | 0, (es : List (κ × ρ)) => do
    let start ← rangeStart order low (es.map (·.1))
    scanLeaf order high (es.drop start)
  | _ + 1, (first, rest) => do
    let start ← rangeStart order low (rest.map (·.1.1))
    let f := focus first rest start
    let inside ← range order low high f.child
    return inside ++ (← scanBranch order high (range order low high) f.after)

end Node

end KeyedRelations.Index
