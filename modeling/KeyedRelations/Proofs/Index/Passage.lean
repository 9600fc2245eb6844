import KeyedRelations.Index.Primary
import Mathlib.Tactic.SplitIfs

/-!
# How an insertion passes through a tree

`Passage` lists the ways in which an insertion can go through a branch: it fails where it looks for
a subtree, it descends, or it splits a full subtree and then fails or descends into one of the two
parts. Everything that is proved about insertions is an induction on the height with one case for
each of these. From left to right the entries stay as they are, and a success adds the new one.
-/

namespace KeyedRelations

theorem exists_of_bind_eq_ok {ε α β : Type} {x : Except ε α} {f : α → Except ε β} {b : β}
    (h : x >>= f = .ok b) : ∃ a, x = .ok a ∧ f a = .ok b := by
  cases x with
  | error fault => cases h
  | ok a => exact ⟨a, rfl, h⟩

namespace Index

variable {κ ρ ε : Type}

/-- A search ends between the bounds that it starts with. -/
theorem boundary_bounds {before : κ → Except ε Bool} {keys : List κ} {steps low high i : Nat}
    (hle : low ≤ high) (hi : boundary before keys steps low high = .ok i) :
    low ≤ i ∧ i ≤ high := by
  induction steps generalizing low high with
  | zero =>
    cases hi
    exact ⟨Nat.le_refl _, hle⟩
  | succ steps ih =>
    rw [boundary] at hi
    split_ifs at hi with hlt
    · dsimp only at hi
      cases hk : keys[(low + high) / 2]? with
      | none =>
        rw [hk] at hi
        cases hi
        exact ⟨Nat.le_refl _, hle⟩
      | some k =>
        simp only [hk] at hi
        obtain ⟨b, -, hi⟩ := exists_of_bind_eq_ok hi
        split_ifs at hi
        · have hbounds := ih (by omega) hi
          omega
        · have hbounds := ih (by omega) hi
          omega
    · cases hi
      exact ⟨Nat.le_refl _, hle⟩

theorem firstAbove_le {order : KeyOrder κ ε} {keys : List κ} {key : κ} {i : Nat}
    (hi : firstAbove order keys key = .ok i) : i ≤ keys.length :=
  (boundary_bounds (Nat.zero_le _) hi).2

namespace Node

variable {h : Nat}

/-- The subtrees of a branch, from left to right. -/
def children : Node κ ρ (h + 1) → List (Node κ ρ h)
  | (first, rest) => first :: rest.map (·.2)

/-! ## Opening and closing a branch -/

theorem plug_cons (child first : Node κ ρ h) (after : List ((κ × ρ) × Node κ ρ h)) (e : κ × ρ)
    (before : List (Node κ ρ h × (κ × ρ))) :
    plug child after ((first, e) :: before) =
      (first, (e, (plug child after before).1) :: (plug child after before).2) := rfl

theorem plug_focus (first : Node κ ρ h) (rest : List ((κ × ρ) × Node κ ρ h)) (i : Nat) :
    plug (focus first rest i).child (focus first rest i).after (focus first rest i).before =
      (first, rest) := by
  induction rest generalizing first i with
  | nil => cases i <;> rfl
  | cons e rest ih =>
    cases i with
    | zero => rfl
    | succ i => rw [focus, plug_cons, ih]

theorem length_before_focus (first : Node κ ρ h) {rest : List ((κ × ρ) × Node κ ρ h)} {i : Nat}
    (hi : i ≤ rest.length) : (focus first rest i).before.length = i := by
  induction rest generalizing first i with
  | nil =>
    obtain rfl : i = 0 := by simpa using hi
    rfl
  | cons e rest ih =>
    cases i with
    | zero => rfl
    | succ i =>
      simp only [focus, List.length_cons]
      rw [ih e.2 (by simpa using hi)]

section Plug

variable (child : Node κ ρ h) (after : List ((κ × ρ) × Node κ ρ h))
  (before : List (Node κ ρ h × (κ × ρ)))

@[simp]
theorem entries_plug :
    (plug child after before).entries = before.map (·.2) ++ after.map (·.1) := by
  induction before with
  | nil => rfl
  | cons b before ih =>
    rw [List.map_cons, List.cons_append, ← ih]
    rfl

@[simp]
theorem children_plug :
    (plug child after before).children = before.map (·.1) ++ child :: after.map (·.2) := by
  induction before with
  | nil => rfl
  | cons b before ih =>
    rw [List.map_cons, List.cons_append, ← ih]
    rfl

theorem toList_plug :
    (plug child after before).toList =
      (before.flatMap fun b => b.1.toList ++ [b.2]) ++
        (child.toList ++ after.flatMap fun a => a.1 :: a.2.toList) := by
  induction before with
  | nil => rfl
  | cons b before ih =>
    rw [List.flatMap_cons, List.append_assoc, List.append_assoc, ← ih]
    rfl

end Plug

/-! ## Splitting -/

theorem split?_isSome {t : Nat} {n : Node κ ρ h} (ht : 2 ≤ t) (hfull : n.isFull t = true) :
    ∃ left e right, n.split? t = some (left, e, right) := by
  have hlength : n.entries.length = 2 * t - 1 := by simpa [isFull] using hfull
  cases h with
  | zero =>
    change List (κ × ρ) at n
    change n.length = 2 * t - 1 at hlength
    obtain ⟨e, right, hdrop⟩ : ∃ e right, n.drop (t - 1) = e :: right := by
      apply List.exists_cons_of_ne_nil
      simp only [ne_eq, List.drop_eq_nil_iff]
      omega
    refine ⟨n.take (t - 1), e, right, ?_⟩
    simp only [split?, hdrop]
  | succ h =>
    obtain ⟨first, rest⟩ := n
    obtain ⟨e, right, hdrop⟩ : ∃ e right, rest.drop (t - 1) = e :: right := by
      apply List.exists_cons_of_ne_nil
      have hrest : rest.length = 2 * t - 1 := by simpa [entries] using hlength
      simp only [ne_eq, List.drop_eq_nil_iff]
      omega
    refine ⟨(first, rest.take (t - 1)), e.1, (e.2, right), ?_⟩
    rw [split?, hdrop]

/-- What a split makes of a leaf. -/
theorem eq_of_split?_leaf {t : Nat} {es left right : List (κ × ρ)} {e : κ × ρ}
    (hs : split? (h := 0) t es = some (left, e, right)) :
    es = left ++ e :: right ∧ left = es.take (t - 1) := by
  simp only [split?] at hs
  cases hdrop : es.drop (t - 1) with
  | nil => simp [hdrop] at hs
  | cons e' right' =>
    rw [hdrop] at hs
    cases hs
    exact ⟨(List.take_append_drop (t - 1) es).symm.trans (by rw [hdrop]), rfl⟩

/-- What a split makes of a branch: the subtree behind the cut goes to the right part. -/
theorem eq_of_split?_branch {t : Nat} {first first' child : Node κ ρ h}
    {rest left right : List ((κ × ρ) × Node κ ρ h)} {e : κ × ρ}
    (hs : split? (h := h + 1) t (first, rest) = some ((first', left), e, (child, right))) :
    first' = first ∧ rest = left ++ (e, child) :: right ∧ left = rest.take (t - 1) := by
  rw [split?] at hs
  cases hdrop : rest.drop (t - 1) with
  | nil => simp [hdrop] at hs
  | cons e' right' =>
    rw [hdrop] at hs
    cases hs
    exact ⟨rfl, (List.take_append_drop (t - 1) rest).symm.trans (by rw [hdrop]), rfl⟩

variable {t : Nat} {n left right : Node κ ρ h} {e : κ × ρ}

theorem toList_of_split? (hs : n.split? t = some (left, e, right)) :
    n.toList = left.toList ++ e :: right.toList := by
  cases h with
  | zero => exact (eq_of_split?_leaf hs).1
  | succ h =>
    obtain ⟨first, rest⟩ := n
    obtain ⟨first', left⟩ := left
    obtain ⟨child, right⟩ := right
    obtain ⟨rfl, rfl, -⟩ := eq_of_split?_branch hs
    simp [toList]

theorem entries_of_split? (hs : n.split? t = some (left, e, right)) :
    n.entries = left.entries ++ e :: right.entries := by
  cases h with
  | zero => exact (eq_of_split?_leaf hs).1
  | succ h =>
    obtain ⟨first, rest⟩ := n
    obtain ⟨first', left⟩ := left
    obtain ⟨child, right⟩ := right
    obtain ⟨rfl, rfl, -⟩ := eq_of_split?_branch hs
    simp [entries]

theorem entries_left_of_split? (hs : n.split? t = some (left, e, right)) :
    left.entries = n.entries.take (t - 1) := by
  cases h with
  | zero => exact (eq_of_split?_leaf hs).2
  | succ h =>
    obtain ⟨first, rest⟩ := n
    obtain ⟨first', left⟩ := left
    obtain ⟨child, right⟩ := right
    obtain ⟨rfl, -, hleft⟩ := eq_of_split?_branch hs
    rw [hleft]
    simp [entries]

theorem children_of_split? {n left right : Node κ ρ (h + 1)}
    (hs : n.split? t = some (left, e, right)) : n.children = left.children ++ right.children := by
  obtain ⟨first, rest⟩ := n
  obtain ⟨first', left⟩ := left
  obtain ⟨child, right⟩ := right
  obtain ⟨rfl, rfl, -⟩ := eq_of_split?_branch hs
  simp [children]

/-- A full node is cut in the middle. -/
theorem length_of_split? (ht : 2 ≤ t) (hfull : n.isFull t = true)
    (hs : n.split? t = some (left, e, right)) :
    left.entries.length = t - 1 ∧ right.entries.length = t - 1 := by
  have hlength : n.entries.length = 2 * t - 1 := by simpa [isFull] using hfull
  have hleft : left.entries.length = t - 1 := by
    rw [entries_left_of_split? hs, List.length_take]
    omega
  have hentries := congrArg List.length (entries_of_split? hs)
  rw [List.length_append, List.length_cons] at hentries
  exact ⟨hleft, by omega⟩

/-! ## Insertions -/

variable (order : KeyOrder κ ε) (key : κ) (row : ρ)

/-- The ways in which an insertion can go through a branch. -/
inductive Passage (t : Nat) : Node κ ρ (h + 1) → Node κ ρ (h + 1) × Except ε Unit → Prop
  | refused {n cause} (search : firstAbove order n.keys key = .error cause) :
    Passage t n (n, .error cause)
  | through {child after before}
    (search : firstAbove order (plug child after before).keys key = .ok before.length)
    (room : child.isFull t = false) :
    Passage t (plug child after before)
      (plug (child.insert order t key row).1 after before, (child.insert order t key row).2)
  | stuck {child after before left middle right cause}
    (search : firstAbove order (plug child after before).keys key = .ok before.length)
    (full : child.isFull t = true) (cut : child.split? t = some (left, middle, right))
    (side : order.greater key middle.1 = .error cause) :
    Passage t (plug child after before)
      (plug left ((middle, right) :: after) before, .error cause)
  | rightward {child after before left middle right}
    (search : firstAbove order (plug child after before).keys key = .ok before.length)
    (full : child.isFull t = true) (cut : child.split? t = some (left, middle, right))
    (side : order.greater key middle.1 = .ok true) :
    Passage t (plug child after before)
      (plug left ((middle, (right.insert order t key row).1) :: after) before,
        (right.insert order t key row).2)
  | leftward {child after before left middle right}
    (search : firstAbove order (plug child after before).keys key = .ok before.length)
    (full : child.isFull t = true) (cut : child.split? t = some (left, middle, right))
    (side : order.greater key middle.1 = .ok false) :
    Passage t (plug child after before)
      (plug (left.insert order t key row).1 ((middle, right) :: after) before,
        (left.insert order t key row).2)

theorem passage_insert (ht : 2 ≤ t) (n : Node κ ρ (h + 1)) :
    Passage order key row t n (n.insert order t key row) := by
  obtain ⟨first, rest⟩ := n
  have hkeys : rest.map (·.1.1) = keys (h := h + 1) (first, rest) := by
    simp [keys, entries, Function.comp_def]
  rw [insert, hkeys]
  split
  · rename_i cause search
    exact .refused search
  · rename_i i search
    have hi : i ≤ rest.length := by simpa [← hkeys] using firstAbove_le search
    have hbefore := length_before_focus first hi
    have hopen := plug_focus first rest i
    generalize focus first rest i = f at hbefore hopen ⊢
    obtain ⟨before, child, after⟩ := f
    subst hbefore
    rw [← hopen] at search ⊢
    dsimp only
    cases full : child.isFull t with
    | false => exact .through search full
    | true =>
      obtain ⟨left, middle, right, cut⟩ := split?_isSome ht full
      simp only [if_true, cut]
      cases side : order.greater key middle.1 with
      | error cause => exact .stuck search full cut side
      | ok above =>
        cases above with
        | true => exact .rightward search full cut side
        | false => exact .leftward search full cut side

theorem insertIdx_length_append {α : Type} (l r : List α) (a : α) :
    (l ++ r).insertIdx l.length a = l ++ a :: r := by
  induction l with
  | nil => rfl
  | cons b l ih => simp [ih]

/-- The ways in which an insertion can end at a leaf. -/
theorem insert_leaf (t : Nat) (es : List (κ × ρ)) :
    (∃ cause, firstAbove order (es.map (·.1)) key = .error cause ∧
      insert (h := 0) order t key row es = (es, .error cause)) ∨
    (∃ left right, es = left ++ right ∧ firstAbove order (es.map (·.1)) key = .ok left.length ∧
      insert (h := 0) order t key row es = (left ++ (key, row) :: right, .ok ())) := by
  cases search : firstAbove order (es.map (·.1)) key with
  | error cause =>
    refine .inl ⟨cause, rfl, ?_⟩
    simp only [insert, search]
    rfl
  | ok i =>
    have hi : i ≤ es.length := by simpa using firstAbove_le search
    have hlength : (es.take i).length = i := by simp [hi]
    refine .inr ⟨es.take i, es.drop i, (List.take_append_drop i es).symm, by rw [hlength], ?_⟩
    rw [← insertIdx_length_append, hlength, List.take_append_drop]
    simp only [insert, search]
    rfl

/-- A list and what an attempt to add an entry makes of it, with whether the attempt succeeds. -/
inductive Added {α : Type} (a : α) : List α → List α → Bool → Prop
  | placed (left right : List α) : Added a (left ++ right) (left ++ a :: right) true
  | failed (as : List α) : Added a as as false

theorem Added.within {α : Type} {a : α} {as bs : List α} {success : Bool}
    (hadded : Added a as bs success) (l r : List α) :
    Added a (l ++ (as ++ r)) (l ++ (bs ++ r)) success := by
  cases hadded with
  | placed left right => simpa using Added.placed (a := a) (l ++ left) (right ++ r)
  | failed _ => exact .failed _

theorem Added.length_eq {α : Type} {a : α} {as bs : List α} {success : Bool}
    (hadded : Added a as bs success) :
    bs.length = if success then as.length + 1 else as.length := by
  cases hadded with
  | placed left right => simp [Nat.add_assoc]
  | failed _ => rfl

theorem Added.eq_of_failed {α : Type} {a : α} {as bs : List α} (hadded : Added a as bs false) :
    bs = as := by
  cases hadded
  rfl

/-- From left to right, an insertion adds its entry when it succeeds and changes nothing when a
comparison fails, whatever it has split. -/
theorem added_insert (ht : 2 ≤ t) (n : Node κ ρ h) :
    Added (key, row) n.toList (n.insert order t key row).1.toList
      (n.insert order t key row).2.isOk := by
  induction h with
  | zero =>
    rcases insert_leaf order key row t n with ⟨cause, -, heq⟩ | ⟨left, right, hn, -, heq⟩
    · rw [heq]
      exact .failed _
    · rw [heq, hn]
      exact .placed left right
  | succ h ih =>
    have hpassage := passage_insert order key row ht n
    generalize n.insert order t key row = outcome at hpassage ⊢
    cases hpassage with
    | refused _ => exact .failed _
    | @through child after before _ _ =>
      simp only [toList_plug]
      exact (ih child).within _ _
    | @stuck child after before left middle right cause _ _ cut _ =>
      simp only [toList_plug, toList_of_split? cut]
      simpa [Except.isOk, Except.toBool] using Added.failed _
    | @rightward child after before left middle right _ _ cut _ =>
      have hadded := (ih right).within
        ((before.flatMap fun b => b.1.toList ++ [b.2]) ++ left.toList ++ [middle])
        (after.flatMap fun a => a.1 :: a.2.toList)
      simpa [toList_plug, toList_of_split? cut] using hadded
    | @leftward child after before left middle right _ _ cut _ =>
      have hadded := (ih left).within (before.flatMap fun b => b.1.toList ++ [b.2])
        (middle :: (right.toList ++ after.flatMap fun a => a.1 :: a.2.toList))
      simpa [toList_plug, toList_of_split? cut] using hadded

end Node

end Index

end KeyedRelations
