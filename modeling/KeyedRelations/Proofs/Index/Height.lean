import KeyedRelations.Proofs.Index.Balance
import Mathlib

/-!
# The height of the tree

The entries of a tree leave one gap more than there are entries, and the gaps of a branch are those of
its subtrees: each entry of the branch stands between two of them. So the gaps multiply from level to
level, by the number of the subtrees that a node may have, and the depth of a tree is logarithmic in
the number of its entries.
-/

namespace KeyedRelations

variable {κ ρ ε : Type}

namespace Index.Node

variable {h t least : Nat}

/-- The places before, between and behind the entries of a tree. -/
def gaps (n : Node κ ρ h) : Nat := n.toList.length + 1

theorem length_children (n : Node κ ρ (h + 1)) : n.children.length = n.entries.length + 1 := by
  obtain ⟨first, rest⟩ := n
  simp [children, entries]

theorem gaps_eq_sum (n : Node κ ρ (h + 1)) : n.gaps = (n.children.map gaps).sum := by
  obtain ⟨first, rest⟩ := n
  induction rest generalizing first with
  | nil => simp [gaps, toList, children]
  | cons e rest ih =>
    have hrest := ih e.2
    simp only [gaps, toList, children, List.length_append, List.flatMap_cons, List.length_cons,
      List.map_cons, List.sum_cons] at hrest ⊢
    omega

namespace Filled

variable {n : Node κ ρ h}

/-- From level to level there are at most `2 * t` times as many gaps. -/
theorem gaps_le (ht : 2 ≤ t) (hfilled : n.Filled t least) : n.gaps ≤ (2 * t) ^ (h + 1) := by
  induction h generalizing least with
  | zero =>
    have hle : n.toList.length ≤ 2 * t - 1 := hfilled.2
    rw [gaps, zero_add, pow_one]
    omega
  | succ h ih =>
    have hbelow : ∀ g ∈ n.children.map gaps, g ≤ (2 * t) ^ (h + 1) :=
      List.forall_mem_map.2 fun c hc => ih (hfilled.2 c hc)
    have hlength : (n.children.map gaps).length ≤ 2 * t := by
      have hle := hfilled.bounds.2
      rw [List.length_map, length_children]
      omega
    calc n.gaps = (n.children.map gaps).sum := n.gaps_eq_sum
      _ ≤ (n.children.map gaps).length • (2 * t) ^ (h + 1) := List.sum_le_card_nsmul _ _ hbelow
      _ ≤ 2 * t * (2 * t) ^ (h + 1) := Nat.mul_le_mul_right _ hlength
      _ = (2 * t) ^ (h + 1 + 1) := (pow_succ' _ _).symm

/-- Below the root there are at least `t` times as many gaps from level to level. -/
theorem le_gaps (ht : 2 ≤ t) (hfilled : n.Filled t least) : (least + 1) * t ^ h ≤ n.gaps := by
  induction h generalizing least with
  | zero =>
    have hle : least ≤ n.toList.length := hfilled.1
    rw [gaps, pow_zero, mul_one]
    omega
  | succ h ih =>
    have hbelow : ∀ g ∈ n.children.map gaps, t * t ^ h ≤ g := by
      refine List.forall_mem_map.2 fun c hc => ?_
      have hchild := ih (hfilled.2 c hc)
      rwa [Nat.sub_add_cancel (by omega)] at hchild
    have hlength : least + 1 ≤ (n.children.map gaps).length := by
      have hle := hfilled.bounds.1
      rw [List.length_map, length_children]
      omega
    calc (least + 1) * t ^ (h + 1) = (least + 1) * (t * t ^ h) := by rw [pow_succ']
      _ ≤ (n.children.map gaps).length • (t * t ^ h) := Nat.mul_le_mul_right _ hlength
      _ ≤ (n.children.map gaps).sum := List.card_nsmul_le_sum _ _ hbelow
      _ = n.gaps := n.gaps_eq_sum.symm

end Filled

end Index.Node

namespace PrimaryIndex

namespace Balanced

variable {index : PrimaryIndex κ ρ} (hbalanced : index.Balanced)

include hbalanced

theorem size_lt : index.size < (2 * index.order) ^ index.depth := by
  have hgaps := hbalanced.filled.gaps_le index.two_le_order
  rw [hbalanced.size_eq]
  exact hgaps

theorem le_size (hdepth : 1 < index.depth) :
    2 * index.order ^ (index.depth - 1) ≤ index.size + 1 := by
  have hgaps := hbalanced.filled.le_gaps index.two_le_order
  -- A root with subtrees has an entry, and so two subtrees.
  have hleast : min 1 index.height = 1 := by
    rw [depth] at hdepth
    omega
  rw [hleast] at hgaps
  rw [hbalanced.size_eq]
  exact hgaps

theorem log_size_lt_depth : Nat.log (2 * index.order) index.size < index.depth :=
  Nat.log_lt_of_lt_pow' (Nat.succ_ne_zero _) hbalanced.size_lt

theorem depth_le_log_size : index.depth ≤ Nat.log index.order ((index.size + 1) / 2) + 1 := by
  rcases Nat.lt_or_ge 1 index.depth with hdepth | hdepth
  · have hpow : index.order ^ (index.depth - 1) ≤ (index.size + 1) / 2 := by
      rw [Nat.le_div_iff_mul_le two_pos, Nat.mul_comm]
      exact hbalanced.le_size hdepth
    have hlog := Nat.le_log_of_pow_le index.two_le_order hpow
    omega
  · exact hdepth.trans (Nat.le_add_left _ _)

end Balanced

/-- The depth of an index that is filled by insertions is logarithmic in the number of its entries,
whatever its keys are and whether or not the insertions succeed. -/
theorem size_insertAll_bounds (order : KeyOrder κ ε) {t : Nat} (ht : 2 ≤ t)
    (calls : List (κ × ρ)) :
    let index := (ofOrder t ht).insertAll order calls
    index.size ≤ (2 * t) ^ index.depth - 1 ∧
      (1 < index.depth → 2 * t ^ (index.depth - 1) - 1 ≤ index.size) := by
  intro index
  have hbalanced : index.Balanced := (balanced_ofOrder ht).insertAll order calls
  have horder : index.order = t := order_insertAll order calls
  have hlt := hbalanced.size_lt
  rw [horder] at hlt
  refine ⟨Nat.le_sub_one_of_lt hlt, fun hdepth => ?_⟩
  have hle := hbalanced.le_size hdepth
  rw [horder] at hle
  exact Nat.sub_le_of_le_add hle

/-- Two levels of no more than three entries: the fourth insertion splits the root and then fails. -/
theorem size_insertAll_bounds_least :
    let calls : List (Key × Row) :=
      [([.int 4], .tuple []), ([.float ⟨0x7ff8000000000000⟩], .tuple []),
        ([.int 7, .text "s"], .tuple []), ([.int 7, .int 5], .tuple [])]
    let index := (ofOrder 2 (by decide)).insertAll Key.order calls
    (index.size ≤ (2 * 2) ^ index.depth - 1 ∧
      (1 < index.depth → 2 * 2 ^ (index.depth - 1) - 1 ≤ index.size)) ∧
        index.depth = 2 ∧ index.size = 2 * 2 ^ (2 - 1) - 1 := by
  intro calls index
  have hbounds := size_insertAll_bounds Key.order (by decide : 2 ≤ 2) calls
  exact ⟨hbounds, by decide +kernel, by decide +kernel⟩

end PrimaryIndex

end KeyedRelations
