import KeyedRelations.Value.Mark
import KeyedRelations.Value.Wording

/-!
# Rows

A row is a tuple of values. A caller may also give a text, which counts as the tuple of its
characters wherever its values are asked for and stays a text where it is passed on. The rows that a
table accepts are tuples; other rows come into an index only by hand.
-/

namespace KeyedRelations

/-- Values in order, one for each column of a table that accepts them. -/
abbrev Tuple := List Value

namespace Tuple

/-- The value at a position; null where there is none. -/
def cell (t : Tuple) (i : Nat) : Value := t.getD i .null

/-- The values at several positions. -/
def pick (t : Tuple) (positions : List Nat) : Tuple := positions.map t.cell

theorem cell_of_lt (t : Tuple) {i : Nat} (h : i < t.length) : t.cell i = t[i] := by
  simp [cell, h]

@[simp]
theorem length_pick (t : Tuple) (positions : List Nat) :
    (t.pick positions).length = positions.length := by
  simp [pick]

end Tuple

/-- A row as a caller gives it. -/
inductive Row where
  | tuple (values : Tuple)
  | text (s : String)

namespace Row

def values : Row → Tuple
  | .tuple values => values
  | .text s => s.toList.map fun c => .text (String.singleton c)

/-- The row as a value. -/
def toValue : Row → Value
  | .tuple values => .tuple values
  | .text s => .text s

/-- The text of a row in a report. -/
def words (row : Row) : Except Fault String := row.toValue.words

def isText : Row → Bool
  | .tuple _ => false
  | .text _ => true

/-- The row with marks that start with its number. -/
def marked (number : Nat) : Row → Row
  | .tuple values => .tuple (Value.markedAll [number] 0 values)
  | .text s => .text s

/-- The value at a position. -/
def value (row : Row) (i : Nat) : Except Fault Value :=
  match row.values[i]? with
  | some v => .ok v
  | none => .error (.outOfRange row.isText)

/-- The values at several positions. -/
def pick (row : Row) (positions : List Nat) : Except Fault Tuple := positions.mapM row.value

/-- One row behind another of its kind. -/
def append : Row → Row → Except Fault Row
  | .tuple a, .tuple b => .ok (.tuple (a ++ b))
  | .text a, .text b => .ok (.text (a ++ b))
  | a, b => .error (.rowKinds a.toValue.kindName b.toValue.kindName)

/-- Whether a row has the given values at the paired positions. The positions are looked at one
after the other, up to the first difference. -/
def holds (row : Row) : Tuple → List Nat → Except Fault Bool
  | v :: values, i :: positions => do
    if v.same (← row.value i) then row.holds values positions else return false
  | _, _ => return true

variable {t : Tuple}

theorem value_tuple {i : Nat} (h : i < t.length) : (tuple t).value i = .ok (t.cell i) := by
  simp [value, values, Tuple.cell, h]

theorem pick_tuple {positions : List Nat} (h : ∀ i ∈ positions, i < t.length) :
    (tuple t).pick positions = .ok (t.pick positions) := by
  induction positions with
  | nil => rfl
  | cons i rest ih =>
    have hi : i < t.length := h i List.mem_cons_self
    have hrest := ih fun j hj => h j (List.mem_cons_of_mem i hj)
    simp only [pick] at hrest ⊢
    rw [List.mapM_cons, value_tuple hi, hrest]
    rfl

theorem holds_tuple {values : Tuple} {positions : List Nat} (h : ∀ i ∈ positions, i < t.length)
    (hlength : values.length = positions.length) :
    (tuple t).holds values positions =
      .ok ((values.zip (t.pick positions)).all fun (v, w) => v.same w) := by
  induction positions generalizing values with
  | nil =>
    obtain rfl := List.length_eq_zero_iff.1 hlength
    rfl
  | cons i rest ih =>
    match values with
    | v :: values =>
      have hi : i < t.length := h i List.mem_cons_self
      have hrest := ih (fun j hj => h j (List.mem_cons_of_mem i hj)) (Nat.succ.inj hlength)
      rw [holds, value_tuple hi]
      by_cases hv : v.same (t.cell i) = true <;>
        simp [hv, hrest, Tuple.pick, pure, Except.pure, bind, Except.bind]

end Row

end KeyedRelations
