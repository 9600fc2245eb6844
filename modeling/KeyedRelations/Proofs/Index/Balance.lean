import KeyedRelations.Key
import KeyedRelations.Proofs.Index.Passage

/-!
# The shape of the tree

Whatever the comparisons of keys answer, and also when they fail half-way, every node but the root
keeps between `t - 1` and `2 * t - 1` entries. The invariant is `Node.Filled`; an insertion goes
only into nodes that are not full, and splits a full node before it enters one of the parts.

`Outline` shows a tree without the promises of its type, and `Outline.Balanced` says all that the
shape of a B-tree promises.
-/

namespace KeyedRelations

open Index

variable {κ ρ ε : Type}

/-- A tree of nodes: the keys, the rows and the subtrees of each, as many as there may be. -/
inductive Index.Outline (κ ρ : Type) where
  | node (keys : List κ) (rows : List ρ) (subtrees : List (Outline κ ρ))

/-- The shape of a B-tree: a node has a row for each key and, unless it is a leaf, one subtree more
than keys; it has at least `least` keys, any node below it at least `t - 1`, and none more than
`2 * t - 1`; all leaves are on level `depth`. -/
inductive Index.Outline.Balanced (t : Nat) : (least depth : Nat) → Outline κ ρ → Prop
  | leaf {least keys rows} (rows_length : rows.length = keys.length)
    (le_length : least ≤ keys.length) (length_le : keys.length ≤ 2 * t - 1) :
    Balanced t least 1 (.node keys rows [])
  | branch {least depth keys rows subtrees} (rows_length : rows.length = keys.length)
    (subtrees_length : subtrees.length = keys.length + 1)
    (le_length : least ≤ keys.length) (length_le : keys.length ≤ 2 * t - 1)
    (below : ∀ s ∈ subtrees, Balanced t (t - 1) depth s) :
    Balanced t least (depth + 1) (.node keys rows subtrees)

namespace Index.Node

variable {h : Nat}

def outline : {h : Nat} → Node κ ρ h → Outline κ ρ
  | 0, es => .node (es.map (·.1)) (es.map (·.2)) []
  | _ + 1, (first, rest) =>
    .node (rest.map (·.1.1)) (rest.map (·.1.2)) (first.outline :: rest.map (·.2.outline))

/-- The node has at least `least` entries, every node below it at least `t - 1`, and none of them
more than `2 * t - 1`. -/
def Filled (t : Nat) : {h : Nat} → (least : Nat) → Node κ ρ h → Prop
  | 0, least, n => least ≤ n.entries.length ∧ n.entries.length ≤ 2 * t - 1
  | _ + 1, least, n =>
    (least ≤ n.entries.length ∧ n.entries.length ≤ 2 * t - 1) ∧
      ∀ c ∈ n.children, c.Filled t (t - 1)

variable {t least : Nat} {n : Node κ ρ h}

theorem Filled.bounds (hfilled : n.Filled t least) :
    least ≤ n.entries.length ∧ n.entries.length ≤ 2 * t - 1 := by
  cases h with
  | zero => exact hfilled
  | succ h => exact hfilled.1

theorem Filled.resize {least' : Nat} (hfilled : n.Filled t least)
    (hle : least' ≤ n.entries.length) : n.Filled t least' := by
  cases h with
  | zero => exact ⟨hle, hfilled.2⟩
  | succ h => exact ⟨⟨hle, hfilled.1.2⟩, hfilled.2⟩

theorem Filled.balanced_outline (hfilled : n.Filled t least) :
    n.outline.Balanced t least (h + 1) := by
  induction h generalizing least with
  | zero =>
    change List (κ × ρ) at n
    change least ≤ n.length ∧ n.length ≤ 2 * t - 1 at hfilled
    obtain ⟨hle, hge⟩ := hfilled
    exact .leaf (by simp) (by simpa using hle) (by simpa using hge)
  | succ h ih =>
    obtain ⟨first, rest⟩ := n
    obtain ⟨⟨hle, hge⟩, hbelow⟩ := hfilled
    refine .branch (by simp) (by simp) (by simpa [entries] using hle)
      (by simpa [entries] using hge) ?_
    intro s hs
    rcases List.mem_cons.1 hs with rfl | hs
    · exact ih (hbelow first List.mem_cons_self)
    · obtain ⟨e, he, rfl⟩ := List.mem_map.1 hs
      exact ih (hbelow e.2 (List.mem_cons_of_mem _ (List.mem_map_of_mem he)))

theorem length_entries_lt (hfilled : n.Filled t least) (hroom : n.isFull t = false) :
    n.entries.length < 2 * t - 1 := by
  have hle := hfilled.bounds.2
  have hne : n.entries.length ≠ 2 * t - 1 := by simpa [isFull] using hroom
  omega

/-- The parts of a full node hold as few entries as a node may. -/
theorem Filled.split (ht : 2 ≤ t) (hfilled : n.Filled t least) (hfull : n.isFull t = true)
    {left right : Node κ ρ h} {e : κ × ρ} (hs : n.split? t = some (left, e, right)) :
    left.Filled t (t - 1) ∧ right.Filled t (t - 1) := by
  obtain ⟨hleft, hright⟩ := length_of_split? ht hfull hs
  have hmin : t - 1 ≤ left.entries.length ∧ t - 1 ≤ right.entries.length := by omega
  cases h with
  | zero => exact ⟨⟨hmin.1, by omega⟩, ⟨hmin.2, by omega⟩⟩
  | succ h =>
    have hchildren := children_of_split? hs
    refine ⟨⟨⟨hmin.1, by omega⟩, ?_⟩, ⟨⟨hmin.2, by omega⟩, ?_⟩⟩
    · intro c hc
      exact hfilled.2 c (hchildren ▸ List.mem_append_left _ hc)
    · intro c hc
      exact hfilled.2 c (hchildren ▸ List.mem_append_right _ hc)

theorem filled_plug {child : Node κ ρ h} {after : List ((κ × ρ) × Node κ ρ h)}
    {before : List (Node κ ρ h × (κ × ρ))} :
    (plug child after before).Filled t least ↔
      (least ≤ before.length + after.length ∧ before.length + after.length ≤ 2 * t - 1) ∧
        (∀ b ∈ before, b.1.Filled t (t - 1)) ∧ child.Filled t (t - 1) ∧
          ∀ a ∈ after, a.2.Filled t (t - 1) := by
  simp only [Filled, entries_plug, children_plug, List.length_append, List.length_map,
    List.forall_mem_append, List.forall_mem_cons, List.forall_mem_map]

/-- A node that is not full has room for the parts of one of its subtrees. -/
theorem Filled.plug_parts {child left right : Node κ ρ h} {e : κ × ρ}
    {after : List ((κ × ρ) × Node κ ρ h)} {before : List (Node κ ρ h × (κ × ρ))}
    (hfilled : (plug child after before).Filled t least)
    (hlt : (plug child after before).entries.length < 2 * t - 1)
    (hleft : left.Filled t (t - 1)) (hright : right.Filled t (t - 1)) :
    (plug left ((e, right) :: after) before).Filled t least := by
  obtain ⟨⟨hle, -⟩, hbefore, -, hafter⟩ := filled_plug.1 hfilled
  simp only [entries_plug, List.length_append, List.length_map] at hlt
  have hlength : least ≤ before.length + ((e, right) :: after).length ∧
      before.length + ((e, right) :: after).length ≤ 2 * t - 1 := by
    rw [List.length_cons]
    constructor
    · omega
    · omega
  exact filled_plug.2 ⟨hlength, hbefore, hleft, List.forall_mem_cons.2 ⟨hright, hafter⟩⟩

/-- An insertion keeps the shape of a node that is not full, whether it succeeds or fails. -/
theorem filled_insert (order : KeyOrder κ ε) (key : κ) (row : ρ) (ht : 2 ≤ t)
    (hfilled : n.Filled t least) (hroom : n.isFull t = false) :
    (n.insert order t key row).1.Filled t least := by
  have hlt := length_entries_lt hfilled hroom
  induction h generalizing least with
  | zero =>
    rcases insert_leaf order key row t n with ⟨cause, -, heq⟩ | ⟨left, right, rfl, -, heq⟩
    · rw [heq]
      exact hfilled
    · rw [heq]
      obtain ⟨hle, -⟩ := hfilled
      simp only [Filled, entries, List.length_append, List.length_cons] at hle hlt ⊢
      omega
  | succ h ih =>
    -- A part of a full subtree is never full, so the induction applies to it as well.
    have hpart : ∀ {c : Node κ ρ h}, c.Filled t (t - 1) → c.entries.length = t - 1 →
        (c.insert order t key row).1.Filled t (t - 1) := by
      intro c hc hlength
      have hnot : c.isFull t = false := by
        simp only [isFull, beq_eq_false_iff_ne, ne_eq]
        omega
      exact ih hc hnot (length_entries_lt hc hnot)
    have hpassage := passage_insert order key row ht n
    generalize n.insert order t key row = outcome at hpassage ⊢
    cases hpassage with
    | refused _ => exact hfilled
    | through _ room =>
      obtain ⟨hlength, hbefore, hchild, hafter⟩ := filled_plug.1 hfilled
      exact filled_plug.2 ⟨hlength, hbefore, ih hchild room (length_entries_lt hchild room), hafter⟩
    | stuck _ full cut _ =>
      obtain ⟨-, -, hchild, -⟩ := filled_plug.1 hfilled
      obtain ⟨hleft, hright⟩ := hchild.split ht full cut
      exact hfilled.plug_parts hlt hleft hright
    | rightward _ full cut _ =>
      obtain ⟨-, -, hchild, -⟩ := filled_plug.1 hfilled
      obtain ⟨hleft, hright⟩ := hchild.split ht full cut
      have hnew := hpart hright (length_of_split? ht full cut).2
      exact hfilled.plug_parts hlt hleft hnew
    | leftward _ full cut _ =>
      obtain ⟨-, -, hchild, -⟩ := filled_plug.1 hfilled
      obtain ⟨hleft, hright⟩ := hchild.split ht full cut
      have hnew := hpart hleft (length_of_split? ht full cut).1
      exact hfilled.plug_parts hlt hnew hright

theorem scanLeaf_none (order : KeyOrder κ ε) (es : List (κ × ρ)) :
    scanLeaf order none es = .ok es := by
  induction es with
  | nil => rfl
  | cons e es ih =>
    simp only [scanLeaf, exceeds, ih]
    rfl

theorem scanBranch_none (order : KeyOrder κ ε) {scan : Node κ ρ h → Except ε (List (κ × ρ))}
    (hscan : ∀ c, scan c = .ok c.toList) (rest : List ((κ × ρ) × Node κ ρ h)) :
    scanBranch order none scan rest = .ok (rest.flatMap fun e => e.1 :: e.2.toList) := by
  induction rest with
  | nil => rfl
  | cons e rest ih =>
    simp only [scanBranch, exceeds, hscan, ih]
    rfl

/-- An open range holds everything and compares nothing. -/
theorem range_none_none (order : KeyOrder κ ε) (n : Node κ ρ h) :
    n.range order none none = .ok n.toList := by
  induction h with
  | zero => exact scanLeaf_none order n
  | succ h ih =>
    obtain ⟨first, rest⟩ := n
    have hfocus : focus first rest 0 = ⟨[], first, rest⟩ := by cases rest <;> rfl
    simp only [range, rangeStart, hfocus, bind, Except.bind, ih, scanBranch_none order ih]
    rfl

end Index.Node

namespace PrimaryIndex

variable (order : KeyOrder κ ε) (key : κ) (row : ρ) (index : PrimaryIndex κ ρ)

def outline : Outline κ ρ := index.root.outline

theorem items_eq : index.items order = .ok index.toList := Node.range_none_none order index.root

/-! ## Room in the root -/

theorem withRoom_cases :
    index.root.isFull index.order = false ∧ index.withRoom = index ∨
    ∃ left middle right, index.root.isFull index.order = true ∧
      index.root.split? index.order = some (left, middle, right) ∧
      index.withRoom =
        { index with height := index.height + 1, root := Node.plug left [(middle, right)] [] } := by
  unfold withRoom
  cases full : index.root.isFull index.order with
  | false => exact .inl ⟨rfl, rfl⟩
  | true =>
    obtain ⟨left, middle, right, cut⟩ := Node.split?_isSome index.two_le_order full
    refine .inr ⟨left, middle, right, rfl, cut, ?_⟩
    simp only [if_true, cut]

@[simp]
theorem order_withRoom : index.withRoom.order = index.order := by
  rcases index.withRoom_cases with ⟨-, heq⟩ | ⟨left, middle, right, -, -, heq⟩ <;> rw [heq]

@[simp]
theorem size_withRoom : index.withRoom.size = index.size := by
  rcases index.withRoom_cases with ⟨-, heq⟩ | ⟨left, middle, right, -, -, heq⟩ <;> rw [heq]

@[simp]
theorem toList_withRoom : index.withRoom.toList = index.toList := by
  rcases index.withRoom_cases with ⟨-, heq⟩ | ⟨left, middle, right, -, cut, heq⟩
  · rw [heq]
  · rw [heq, toList, toList, Node.toList_plug, Node.toList_of_split? cut]
    simp

/-! ## Insertions -/

/-- The ways in which an insertion can end. -/
inductive Insertion : PrimaryIndex κ ρ × Except (InsertFault ε) Unit → Prop
  | refused {cause} (search : index.find? order key = .error cause) :
    Insertion (index, .error (.comparison cause))
  | taken {other} (search : index.find? order key = .ok (some other)) :
    Insertion (index, .error .taken)
  | stuck {root cause} (search : index.find? order key = .ok none)
    (descent : index.withRoom.root.insert order index.withRoom.order key row =
      (root, .error cause)) :
    Insertion ({ index.withRoom with root }, .error (.comparison cause))
  | added {root} (search : index.find? order key = .ok none)
    (descent : index.withRoom.root.insert order index.withRoom.order key row = (root, .ok ())) :
    Insertion ({ index.withRoom with root, size := index.withRoom.size + 1 }, .ok ())

theorem insertion_insert : Insertion order key row index (index.insert order key row) := by
  unfold insert
  cases search : index.find? order key with
  | error cause => exact .refused search
  | ok found =>
    cases found with
    | some other => exact .taken search
    | none =>
      dsimp only
      rcases descent : index.withRoom.root.insert order index.withRoom.order key row with
        ⟨root, cause | _⟩
      · exact .stuck search descent
      · exact .added search descent

/-- From left to right, an insertion adds its entry when it succeeds and changes nothing when it
fails. -/
theorem added_insert :
    Node.Added (key, row) index.toList (index.insert order key row).1.toList
      (index.insert order key row).2.isOk := by
  have hinsertion := index.insertion_insert order key row
  have hadded := Node.added_insert order key row index.withRoom.two_le_order index.withRoom.root
  rw [← toList, index.toList_withRoom] at hadded
  generalize index.insert order key row = outcome at hinsertion ⊢
  cases hinsertion with
  | refused _ => exact .failed _
  | taken _ => exact .failed _
  | stuck _ descent =>
    rw [descent] at hadded
    exact hadded
  | added _ descent =>
    rw [descent] at hadded
    exact hadded

theorem size_insert :
    (index.insert order key row).1.size =
      if (index.insert order key row).2.isOk then index.size + 1 else index.size := by
  have hinsertion := index.insertion_insert order key row
  generalize index.insert order key row = outcome at hinsertion ⊢
  cases hinsertion with
  | refused _ => rfl
  | taken _ => rfl
  | stuck _ _ => exact index.size_withRoom
  | added _ _ => exact congrArg (· + 1) index.size_withRoom

@[simp]
theorem order_insert : (index.insert order key row).1.order = index.order := by
  have hinsertion := index.insertion_insert order key row
  generalize index.insert order key row = outcome at hinsertion ⊢
  cases hinsertion with
  | refused _ => rfl
  | taken _ => rfl
  | stuck _ _ => exact index.order_withRoom
  | added _ _ => exact index.order_withRoom

/-- The shape of the tree and the count of its entries. A root with subtrees has an entry. -/
structure Balanced : Prop where
  filled : index.root.Filled index.order (min 1 index.height)
  size_eq : index.size = index.toList.length

theorem balanced_ofOrder {t : Nat} (ht : 2 ≤ t) : (ofOrder t ht : PrimaryIndex κ ρ).Balanced :=
  ⟨⟨Nat.le_refl _, Nat.zero_le _⟩, rfl⟩

variable {index}

theorem Balanced.root_withRoom (hbalanced : index.Balanced) :
    index.withRoom.root.Filled index.withRoom.order (min 1 index.withRoom.height) ∧
      index.withRoom.root.isFull index.withRoom.order = false := by
  rcases index.withRoom_cases with ⟨hnot, heq⟩ | ⟨left, middle, right, full, cut, heq⟩
  · rw [heq]
    exact ⟨hbalanced.filled, hnot⟩
  · have ht := index.two_le_order
    obtain ⟨hleft, hright⟩ := hbalanced.filled.split ht full cut
    rw [heq]
    refine ⟨Node.filled_plug.2 ⟨?_, by simp, hleft, by simpa using hright⟩, ?_⟩
    · simp only [List.length_nil, List.length_singleton]
      omega
    · simp only [Node.isFull, Node.entries_plug, List.map_nil, List.nil_append, List.length_map,
        List.length_singleton, beq_eq_false_iff_ne, ne_eq]
      omega

theorem Balanced.insert (hbalanced : index.Balanced) :
    (index.insert order key row).1.Balanced := by
  have hsize : (index.insert order key row).1.size =
      (index.insert order key row).1.toList.length := by
    rw [index.size_insert, hbalanced.size_eq, (index.added_insert order key row).length_eq]
  obtain ⟨hroot, hnot⟩ := hbalanced.root_withRoom
  have hfilled := Node.filled_insert order key row index.withRoom.two_le_order hroot hnot
  have hinsertion := index.insertion_insert order key row
  refine ⟨?_, hsize⟩
  generalize index.insert order key row = outcome at hinsertion ⊢
  cases hinsertion with
  | refused _ => exact hbalanced.filled
  | taken _ => exact hbalanced.filled
  | stuck _ descent =>
    rw [descent] at hfilled
    exact hfilled
  | added _ descent =>
    rw [descent] at hfilled
    exact hfilled

/-- The index after insertions one after the other, of which some may fail. -/
def insertAll (index : PrimaryIndex κ ρ) (calls : List (κ × ρ)) : PrimaryIndex κ ρ :=
  calls.foldl (fun index e => (index.insert order e.1 e.2).1) index

theorem Balanced.insertAll (hbalanced : index.Balanced) (calls : List (κ × ρ)) :
    (index.insertAll order calls).Balanced := by
  induction calls generalizing index with
  | nil => exact hbalanced
  | cons e calls ih => exact ih (hbalanced.insert order e.1 e.2)

@[simp]
theorem order_insertAll (calls : List (κ × ρ)) :
    (index.insertAll order calls).order = index.order := by
  induction calls generalizing index with
  | nil => rfl
  | cons e calls ih => exact ih.trans (index.order_insert order e.1 e.2)

/-- An index that is filled by insertions has the shape of a B-tree, whatever its keys are and
whether or not the insertions succeed. -/
theorem outline_insertAll_balanced (order : KeyOrder κ ε) {t : Nat} (ht : 2 ≤ t)
    (calls : List (κ × ρ)) :
    let index := (ofOrder t ht).insertAll order calls
    index.outline.Balanced t 0 index.depth ∧
      index.items order = .ok index.toList ∧ index.size = index.toList.length := by
  intro index
  have hbalanced : index.Balanced := (balanced_ofOrder ht).insertAll order calls
  have horder : index.order = t := order_insertAll order calls
  have hfilled := hbalanced.filled.resize (Nat.zero_le _)
  rw [horder] at hfilled
  exact ⟨hfilled.balanced_outline, index.items_eq order, hbalanced.size_eq⟩

/-- Two levels of four entries, from keys of which one is not a number, one is no number at all and
one comes twice. -/
theorem outline_insertAll_mixed_keys :
    let calls : List (Key × Row) :=
      [([.int 5], .tuple []), ([.float ⟨0x7ff8000000000000⟩], .tuple []), ([.text "a"], .tuple []),
        ([.int 7], .tuple []), ([.int 9], .tuple []), ([.int 5], .tuple [])]
    let index := (ofOrder 2 (by decide)).insertAll Key.order calls
    index.outline.Balanced 2 0 index.depth ∧
      (index.items Key.order = .ok index.toList ∧ index.size = index.toList.length) ∧
        index.depth = 2 ∧ index.size = 4 := by
  intro calls index
  have hshape := outline_insertAll_balanced Key.order (by decide : 2 ≤ 2) calls
  exact ⟨hshape.1, hshape.2, rfl, rfl⟩

end PrimaryIndex

end KeyedRelations
