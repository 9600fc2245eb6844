/-!
# Searching an ordered list of keys

Keys are compared through a `KeyOrder`, whose comparisons may fail. Both searches halve the list
and ask one comparison per step, so which comparisons are made is part of what they do.
-/

namespace KeyedRelations

/-- How keys are compared; the two orderings may refuse a pair of keys. -/
structure KeyOrder (κ ε : Type) where
  same : κ → κ → Bool
  less : κ → κ → Except ε Bool
  greater : κ → κ → Except ε Bool

namespace Index

variable {κ ε : Type}

/-- Halves the stretch from `low` to `high` until it is empty, keeping the part to the right of a
middle key when `before` holds of that key and the part to its left otherwise. -/
def boundary (before : κ → Except ε Bool) (keys : List κ) : (steps low high : Nat) → Except ε Nat
  | 0, low, _ => .ok low
  | steps + 1, low, high =>
    if low < high then
      let middle := (low + high) / 2
      match keys[middle]? with
      | none => .ok low
      | some k => do
        if ← before k then boundary before keys steps (middle + 1) high
        else boundary before keys steps low middle
    else .ok low

/-- Where to find a key: the number of keys below it. -/
def firstNotBelow (order : KeyOrder κ ε) (keys : List κ) (key : κ) : Except ε Nat :=
  boundary (fun k => order.less k key) keys keys.length 0 keys.length

/-- Where to put a key: after all the keys that it is not below. -/
def firstAbove (order : KeyOrder κ ε) (keys : List κ) (key : κ) : Except ε Nat :=
  boundary (fun k => return !(← order.less key k)) keys keys.length 0 keys.length

end Index

end KeyedRelations
