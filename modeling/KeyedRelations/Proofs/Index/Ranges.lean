import KeyedRelations.Proofs.Index.FiniteMap
import KeyedRelations.Proofs.Key.Operators

/-!
# Ranges of keys

A scan of a range skips what lies below the lower end and stops at the first key above the upper end,
but every node stops for itself only. What follows a subtree that has stopped lies above the upper end
as well, so the branch above it stops at the next separator, and so on up to the root. `Cut` says what
the ends of a range do to the entries of a tree from left to right; from it, a scan gives the entries
of the range and nothing else.
-/

namespace KeyedRelations

open Index

variable {κ ρ ε : Type}

namespace Index.Node

variable {h : Nat} {order : KeyOrder κ ε} {low high : Option κ} {reaches within : κ → Bool}
  {es : List (κ × ρ)}

/-- Whether a key lies below the lower end of a range. -/
def precedes (order : KeyOrder κ ε) (low : Option κ) (k : κ) : Except ε Bool :=
  match low with
  | none => .ok false
  | some key => order.less k key

/-- The ends of a range cut a list in three parts: the entries that do not reach the lower end come
first, and those that are not within the upper end come last. -/
structure Cut (order : KeyOrder κ ε) (low high : Option κ) (reaches within : κ → Bool)
    (es : List (κ × ρ)) : Prop where
  precedes_eq : ∀ e ∈ es, precedes order low e.1 = .ok (!reaches e.1)
  exceeds_eq : ∀ e ∈ es, exceeds order high e.1 = .ok (!within e.1)
  reaches_mono : es.Pairwise fun a b => reaches a.1 = true → reaches b.1 = true
  within_mono : es.Pairwise fun a b => within b.1 = true → within a.1 = true

theorem Cut.sublist {es' : List (κ × ρ)} (hcut : Cut order low high reaches within es)
    (hsub : es'.Sublist es) : Cut order low high reaches within es' where
  precedes_eq e he := hcut.precedes_eq e (hsub.subset he)
  exceeds_eq e he := hcut.exceeds_eq e (hsub.subset he)
  reaches_mono := hcut.reaches_mono.sublist hsub
  within_mono := hcut.within_mono.sublist hsub

/-- The entries that lie below the lower end come first. -/
theorem Cut.exists_parts (hcut : Cut order low high reaches within es) :
    ∃ left right, es = left ++ right ∧ (∀ e ∈ left, reaches e.1 = false) ∧
      ∀ e ∈ right, reaches e.1 = true := by
  have hmono : es.Pairwise fun a b => (!reaches b.1) = true → (!reaches a.1) = true := by
    refine hcut.reaches_mono.imp fun {a b} hreaches hb => ?_
    cases ha : reaches a.1 with
    | false => rfl
    | true => simp [hreaches ha] at hb
  obtain ⟨left, right, heq, hleft, hright⟩ := exists_cut hmono
  exact ⟨left, right, heq, by simpa using hleft, by simpa using hright⟩

theorem Cut.rangeStart_eq {left right : List (κ × ρ)}
    (hcut : Cut order low high reaches within (left ++ right))
    (hleft : ∀ e ∈ left, reaches e.1 = false) (hright : ∀ e ∈ right, reaches e.1 = true) :
    rangeStart order low ((left ++ right).map (·.1)) = .ok left.length := by
  obtain ⟨hbelow, habove⟩ := List.forall_mem_append.1 hcut.precedes_eq
  cases low with
  | none =>
    cases left with
    | nil => rfl
    | cons e left =>
      have hnot := hbelow e List.mem_cons_self
      rw [hleft e List.mem_cons_self] at hnot
      cases hnot
  | some key =>
    have hlength : (left.map (·.1)).length = left.length := List.length_map _
    rw [List.map_append, ← hlength]
    refine boundary_append ?_ ?_ (Nat.zero_le _) (by simp) (Nat.le_refl _) (by omega)
    · rintro k hk
      obtain ⟨e, he, rfl⟩ := List.mem_map.1 hk
      exact (hbelow e he).trans (by rw [hleft e he]; rfl)
    · rintro k hk
      obtain ⟨e, he, rfl⟩ := List.mem_map.1 hk
      exact (habove e he).trans (by rw [hright e he]; rfl)

/-! ## Scanning -/

/-- Where an entry is above the upper end, nothing that follows is in the range. -/
theorem Cut.filter_eq_nil {e : κ × ρ} (hcut : Cut order low high reaches within (e :: es))
    (habove : within e.1 = false) :
    (e :: es).filter (fun e => reaches e.1 && within e.1) = [] := by
  rw [List.filter_eq_nil_iff]
  intro a ha hin
  rw [Bool.and_eq_true] at hin
  rcases List.mem_cons.1 ha with rfl | ha
  · exact absurd (habove.symm.trans hin.2) (by decide)
  · obtain ⟨hfirst, -⟩ := List.pairwise_cons.1 hcut.within_mono
    exact absurd (habove.symm.trans (hfirst a ha hin.2)) (by decide)

theorem scanLeaf_eq (hcut : Cut order low high reaches within es)
    (hreaches : ∀ e ∈ es, reaches e.1 = true) :
    scanLeaf order high es = .ok (es.filter fun e => reaches e.1 && within e.1) := by
  induction es with
  | nil => rfl
  | cons e es ih =>
    obtain ⟨hhere, hrest⟩ := List.forall_mem_cons.1 hreaches
    rw [scanLeaf, hcut.exceeds_eq e List.mem_cons_self]
    cases hwithin : within e.1 with
    | false =>
      rw [hcut.filter_eq_nil hwithin]
      rfl
    | true =>
      rw [List.filter_cons_of_pos (by rw [hhere, hwithin]; rfl)]
      simp only [bind, Except.bind, ih (hcut.sublist (List.sublist_cons_self e es)) hrest]
      rfl

/-- The scan of a branch stops at the first separator above the upper end, if the scans of the
subtrees in front of it give the entries of the range. -/
theorem scanBranch_eq {scan : Node κ ρ h → Except ε (List (κ × ρ))}
    {after : List ((κ × ρ) × Node κ ρ h)}
    (hscan : ∀ a ∈ after,
      scan a.2 = .ok (a.2.toList.filter fun e => reaches e.1 && within e.1))
    (hcut : Cut order low high reaches within (after.flatMap fun a => a.1 :: a.2.toList))
    (hreaches : ∀ a ∈ after, reaches a.1.1 = true) :
    scanBranch order high scan after =
      .ok ((after.flatMap fun a => a.1 :: a.2.toList).filter fun e =>
        reaches e.1 && within e.1) := by
  induction after with
  | nil => rfl
  | cons a after ih =>
    obtain ⟨hscanHere, hscanRest⟩ := List.forall_mem_cons.1 hscan
    obtain ⟨hhere, hrest⟩ := List.forall_mem_cons.1 hreaches
    rw [List.flatMap_cons, List.cons_append] at hcut ⊢
    have hcutRest := hcut.sublist ((List.sublist_append_right a.2.toList _).cons a.1)
    obtain ⟨e, child⟩ := a
    rw [scanBranch, hcut.exceeds_eq e List.mem_cons_self]
    cases hwithin : within e.1 with
    -- Behind a separator above the upper end nothing is scanned, and nothing is in the range.
    | false =>
      rw [hcut.filter_eq_nil hwithin]
      rfl
    | true =>
      rw [List.filter_cons_of_pos (by rw [hhere, hwithin]; rfl), List.filter_append]
      simp only [bind, Except.bind, hscanHere, ih hscanRest hcutRest hrest]
      rfl

/-- How a scan goes through a branch that is opened where the range begins. -/
theorem range_plug {child : Node κ ρ h} {after : List ((κ × ρ) × Node κ ρ h)}
    {before : List (Node κ ρ h × (κ × ρ))}
    (hstart : rangeStart order low (plug child after before).keys = .ok before.length) :
    (plug child after before).range order low high = do
      let inside ← child.range order low high
      return inside ++ (← scanBranch order high (range order low high) after) := by
  obtain ⟨hfocus, -⟩ := focus_plug child after before
  generalize plug child after before = n at hstart hfocus
  obtain ⟨first, rest⟩ := n
  have hkeys : rest.map (·.1.1) = keys (h := h + 1) (first, rest) := by
    simp [keys, entries, Function.comp_def]
  dsimp only at hfocus
  rw [range, hkeys, hstart]
  simp only [bind, Except.bind, hfocus]

theorem range_leaf (hcut : Cut order low high reaches within es) :
    range (h := 0) order low high es = .ok (es.filter fun e => reaches e.1 && within e.1) := by
  obtain ⟨left, right, rfl, hleft, hright⟩ := hcut.exists_parts
  have hnone : left.filter (fun e => reaches e.1 && within e.1) = [] := by
    rw [List.filter_eq_nil_iff]
    intro e he
    simp [hleft e he]
  have hscan := scanLeaf_eq (hcut.sublist (List.sublist_append_right left right)) hright
  simp only [range, hcut.rangeStart_eq hleft hright, bind, Except.bind, List.drop_left]
  rw [List.filter_append, hnone, List.nil_append]
  exact hscan

section Plug

variable {child : Node κ ρ h} {after : List ((κ × ρ) × Node κ ρ h)}
  {before : List (Node κ ρ h × (κ × ρ))}
  (hcut : Cut order low high reaches within (plug child after before).toList)

include hcut

/-- What stands in front of a separator below the lower end is below it. -/
theorem Cut.filter_before (hbefore : ∀ b ∈ before, reaches b.2.1 = false) :
    (before.flatMap fun b => b.1.toList ++ [b.2]).filter (fun e => reaches e.1 && within e.1) =
      [] := by
  rw [toList_plug] at hcut
  have hpieces := (List.pairwise_append.1 hcut.reaches_mono).1
  rw [List.filter_eq_nil_iff]
  intro e he
  obtain ⟨b, hb, he⟩ := List.mem_flatMap.1 he
  have hpiece := (List.pairwise_flatMap.1 hpieces).1 b hb
  have hnot : reaches e.1 = false := by
    rcases List.mem_append.1 he with hinside | hlast
    · obtain ⟨-, -, hmono⟩ := List.pairwise_append.1 hpiece
      cases hreaches : reaches e.1 with
      | false => rfl
      | true => exact (hmono e hinside b.2 List.mem_cons_self hreaches).symm.trans (hbefore b hb)
    · rw [List.mem_singleton.1 hlast]
      exact hbefore b hb
  simp [hnot]

theorem Cut.filter_plug (hbefore : ∀ b ∈ before, reaches b.2.1 = false) :
    (plug child after before).toList.filter (fun e => reaches e.1 && within e.1) =
      (child.toList.filter fun e => reaches e.1 && within e.1) ++
        (after.flatMap fun a => a.1 :: a.2.toList).filter fun e => reaches e.1 && within e.1 := by
  rw [toList_plug, List.filter_append, List.filter_append, hcut.filter_before hbefore,
    List.nil_append]

end Plug

/-- A scan gives the entries that the ends of the range let through, in their order. -/
theorem range_eq_filter {n : Node κ ρ h} (hcut : Cut order low high reaches within n.toList) :
    n.range order low high = .ok (n.toList.filter fun e => reaches e.1 && within e.1) := by
  induction h with
  | zero => exact range_leaf hcut
  | succ h ih =>
    -- The branch is opened between its separators below the lower end and the others.
    have hcutHere := hcut.sublist (entries_sublist n)
    obtain ⟨left, right, hentries, hleft, hright⟩ := hcutHere.exists_parts
    have hkeys : n.keys = (left ++ right).map (·.1) := by rw [keys, hentries]
    rw [hentries] at hcutHere
    have hstart := hcutHere.rangeStart_eq hleft hright
    have hle : left.length ≤ n.keys.length := by simp [hkeys]
    rw [← hkeys] at hstart
    obtain ⟨child, after, before, rfl, hlength⟩ := exists_plug hle
    rw [← hlength] at hstart
    rw [entries_plug] at hentries
    obtain ⟨rfl, rfl⟩ := List.append_inj hentries (by simpa using hlength)
    rw [range_plug hstart, hcut.filter_plug (List.forall_mem_map.1 hleft)]
    rw [toList_plug] at hcut
    have hcutRest := hcut.sublist (List.sublist_append_right _ _)
    have hchild := ih (hcutRest.sublist (List.sublist_append_left _ _))
    have hcutAfter := hcutRest.sublist (List.sublist_append_right _ _)
    have hscan : ∀ a ∈ after, a.2.range order low high =
        .ok (a.2.toList.filter fun e => reaches e.1 && within e.1) := by
      intro a ha
      have hpiece := List.sublist_flatten_of_mem
        (List.mem_map_of_mem (f := fun a : (κ × ρ) × Node κ ρ h => a.1 :: a.2.toList) ha)
      exact ih (hcutAfter.sublist ((List.sublist_cons_self a.1 a.2.toList).trans hpiece))
    have hafter := scanBranch_eq hscan hcutAfter (List.forall_mem_map.1 hright)
    simp only [hchild, hafter, bind, Except.bind]
    rfl

end Index.Node

/-! ## Keys between two ends -/

namespace Key

/-- Whether a key is not below the lower end of a range; a missing end is open. -/
def Reaches (low : Option Key) (key : Key) : Prop :=
  ∀ bound ∈ low, Operator.test .le (.key bound) (.key key) = .ok true

/-- Whether a key is not above the upper end of a range; a missing end is open. -/
def Within (high : Option Key) (key : Key) : Prop :=
  ∀ bound ∈ high, Operator.test .le (.key key) (.key bound) = .ok true

instance (low : Option Key) (key : Key) : Decidable (Reaches low key) :=
  inferInstanceAs (Decidable (∀ bound ∈ low, _))

instance (high : Option Key) (key : Key) : Decidable (Within high key) :=
  inferInstanceAs (Decidable (∀ bound ∈ high, _))

variable {low high : Option Key} {S : Set Key} {es : List (Key × ρ)}

section Bound

variable {α : Type} [LinearOrder α] {place : Key → α} {bound key : Key}
  (hS : order.Along place S) (hbound : bound ∈ S) (hkey : key ∈ S)

include hS hbound hkey

theorem reaches_some_iff : Reaches (some bound) key ↔ place bound ≤ place key := by
  simp [Reaches, hS.le_eq hbound hkey]

theorem within_some_iff : Within (some bound) key ↔ place key ≤ place bound := by
  simp [Within, hS.le_eq hkey hbound]

end Bound

section Ends

variable (htotal : order.TotalOn S) (hsorted : order.Sorted es) (hkeys : ∀ e ∈ es, e.1 ∈ S)

include htotal hsorted hkeys

/-- The lower end tells the keys that reach it, and these come last. -/
theorem reaches_part (hlow : ∀ bound ∈ low, bound ∈ S) :
    (∀ e ∈ es, Node.precedes order low e.1 = .ok (!decide (Reaches low e.1))) ∧
      es.Pairwise fun a b => Reaches low a.1 → Reaches low b.1 := by
  cases low with
  | none =>
    have hopen : ∀ key, Reaches none key := fun key bound hbound => by cases hbound
    exact ⟨fun e _ => by simp [hopen, Node.precedes], List.pairwise_of_forall fun _ b _ => hopen b.1⟩
  | some bound =>
    obtain ⟨line, _, place, hS⟩ := htotal
    have hbound : bound ∈ S := hlow bound rfl
    have hascending := (ascending_iff_sorted hS hkeys).2 hsorted
    constructor
    · intro e he
      rw [decide_eq_decide.2 (reaches_some_iff hS hbound (hkeys e he)), ← decide_not,
        decide_eq_decide.2 not_le]
      exact hS.less_eq e.1 (hkeys e he) bound hbound
    · refine hascending.imp_of_mem fun {a b} ha hb hlt => ?_
      rw [reaches_some_iff hS hbound (hkeys a ha), reaches_some_iff hS hbound (hkeys b hb)]
      exact fun hle => hle.trans hlt.le

/-- The upper end tells the keys that are within it, and these come first. -/
theorem within_part (hhigh : ∀ bound ∈ high, bound ∈ S) :
    (∀ e ∈ es, Node.exceeds order high e.1 = .ok (!decide (Within high e.1))) ∧
      es.Pairwise fun a b => Within high b.1 → Within high a.1 := by
  cases high with
  | none =>
    have hopen : ∀ key, Within none key := fun key bound hbound => by cases hbound
    exact ⟨fun e _ => by simp [hopen, Node.exceeds], List.pairwise_of_forall fun a _ _ => hopen a.1⟩
  | some bound =>
    obtain ⟨line, _, place, hS⟩ := htotal
    have hbound : bound ∈ S := hhigh bound rfl
    have hascending := (ascending_iff_sorted hS hkeys).2 hsorted
    constructor
    · intro e he
      rw [decide_eq_decide.2 (within_some_iff hS hbound (hkeys e he)), ← decide_not,
        decide_eq_decide.2 not_le]
      exact hS.greater_eq e.1 (hkeys e he) bound hbound
    · refine hascending.imp_of_mem fun {a b} ha hb hlt => ?_
      rw [within_some_iff hS hbound (hkeys a ha), within_some_iff hS hbound (hkeys b hb)]
      exact fun hle => hlt.le.trans hle

end Ends

end Key

/-! ## Indexes that are filled by insertions -/

namespace PrimaryIndex

/-- An index that is filled with totally ordered keys represents some of the entries that were
offered. -/
theorem Represents.insertAll {K : Set Key} (htotal : Key.order.TotalOn K) {index : TableIndex}
    {accepted : List (Key × Row)} (hrep : index.Represents accepted) (hkeys : ∀ e ∈ accepted, e.1 ∈ K)
    {calls : List (Key × Row)} (hcalls : ∀ e ∈ calls, e.1 ∈ K) :
    ∃ accepted', (index.insertAll Key.order calls).Represents accepted' ∧
      ∀ e ∈ accepted', e.1 ∈ K := by
  induction calls generalizing index accepted with
  | nil => exact ⟨accepted, hrep, hkeys⟩
  | cons e calls ih =>
    obtain ⟨hkey, hrest⟩ := List.forall_mem_cons.1 hcalls
    have hunion : Key.order.TotalOn (K ∪ {e.1}) :=
      htotal.mono (Set.union_subset subset_rfl (Set.singleton_subset_iff.2 hkey))
    have hstep : (index.insert Key.order e.1 e.2).1 = (index.insertAs "" e.1 e.2).1 := rfl
    change ∃ accepted', (PrimaryIndex.insertAll Key.order
      (index.insert Key.order e.1 e.2).1 calls).Represents accepted' ∧ _
    rcases hrep.insertAs hkeys hunion "" e.2 with ⟨-, -, -, hinsert⟩ | ⟨index', -, hinsert, hrep'⟩
    · rw [hstep, hinsert]
      exact ih hrep hkeys hrest
    · rw [hstep, hinsert]
      exact ih hrep' (List.forall_mem_append.2 ⟨hkeys, List.forall_mem_singleton.2 hkey⟩) hrest

/-- A range of an index that is filled by insertions gives exactly the entries whose keys lie between
its ends, in ascending order and each of them once. Each end has to be totally ordered with the keys
that were offered; it need not be one of them, nor be as long as they are, and the lower end may lie
above the upper one. -/
theorem range_insertAll_eq_filter {t : Nat} (ht : 2 ≤ t) (calls : List (Key × Row))
    (low high : Option Key)
    (hlow : Key.order.TotalOn ({k | ∃ e ∈ calls, e.1 = k} ∪ {k | low = some k}))
    (hhigh : Key.order.TotalOn ({k | ∃ e ∈ calls, e.1 = k} ∪ {k | high = some k})) :
    let index := (ofOrder t ht).insertAll Key.order calls
    ∃ es, index.items Key.order = .ok es ∧
      index.range Key.order low high =
        .ok (es.filter fun e => Key.Reaches low e.1 ∧ Key.Within high e.1) ∧
      Key.order.Sorted (es.filter fun e => Key.Reaches low e.1 ∧ Key.Within high e.1) := by
  intro index
  have hoffered := hlow.mono (Set.subset_union_left (s := {k | ∃ e ∈ calls, e.1 = k}))
  have hcalls : ∀ e ∈ calls, e.1 ∈ {k | ∃ e ∈ calls, e.1 = k} := fun e he => ⟨e, he, rfl⟩
  obtain ⟨accepted, hrep, hkeys⟩ := (represents_ofOrder ht).insertAll hoffered (by simp) hcalls
  have hkeysHere : ∀ e ∈ index.toList, ∃ e' ∈ calls, e'.1 = e.1 := fun e he =>
    hkeys e (hrep.perm.mem_iff.1 he)
  obtain ⟨hprecedes, hreaches⟩ := Key.reaches_part hlow hrep.sorted
    (fun e he => .inl (hkeysHere e he)) fun bound hbound => .inr hbound
  obtain ⟨hexceeds, hwithin⟩ := Key.within_part hhigh hrep.sorted
    (fun e he => .inl (hkeysHere e he)) fun bound hbound => .inr hbound
  have hcut : Node.Cut Key.order low high (fun k => decide (Key.Reaches low k))
      (fun k => decide (Key.Within high k)) index.toList :=
    ⟨hprecedes, hexceeds, hreaches.imp (by simp), hwithin.imp (by simp)⟩
  refine ⟨index.toList, index.items_eq Key.order, ?_, hrep.sorted.sublist List.filter_sublist⟩
  simp only [Bool.decide_and]
  exact Node.range_eq_filter hcut

/-- Pairs of numbers on three levels, from a key that is shorter to one that is longer. -/
theorem range_insertAll_pairs_of_numbers :
    let pairs : List (Int × Int) := [(5, 2), (2, 9), (3, 1), (7, 3), (5, 3), (3, 2), (1, 1), (9, 1),
      (5, 1), (4, 4), (8, 0), (5, 2)]
    let calls : List (Key × Row) :=
      pairs.map fun p => ([.int p.1, .int p.2], .tuple [.int p.1, .int p.2])
    let low : Key := [.int 3]
    let high : Key := [.int 5, .int 2, .int 0]
    let index := (ofOrder 2 (by decide)).insertAll Key.order calls
    (Key.order.TotalOn ({k | ∃ e ∈ calls, e.1 = k} ∪ {k | some low = some k}) ∧
      Key.order.TotalOn ({k | ∃ e ∈ calls, e.1 = k} ∪ {k | some high = some k})) ∧
    (∃ es, index.items Key.order = .ok es ∧
      index.range Key.order (some low) (some high) =
        .ok (es.filter fun e => Key.Reaches (some low) e.1 ∧ Key.Within (some high) e.1) ∧
      Key.order.Sorted
        (es.filter fun e => Key.Reaches (some low) e.1 ∧ Key.Within (some high) e.1)) ∧
    index.depth = 3 ∧
    (index.range Key.order (some low) (some high)).map (fun es =>
      Value.sameAll (es.map fun e => .key e.1)
        [.key [.int 3, .int 1], .key [.int 3, .int 2], .key [.int 4, .int 4], .key [.int 5, .int 1],
          .key [.int 5, .int 2]]) = .ok true := by
  intro pairs calls low high index
  have haccepts : ∀ p ∈ pairs, Domain.integer64.accepts (.int p.1) = true ∧
      Domain.integer64.accepts (.int p.2) = true := by
    decide
  have hoffered : ∀ e ∈ calls, Key.Begins [.integer64, .integer64, .integer64] e.1 ∧
      e.1.hasNaN = false := by
    intro e he
    obtain ⟨p, hp, rfl⟩ := List.mem_map.1 he
    obtain ⟨hfirst, hsecond⟩ := haccepts p hp
    exact ⟨.cons (Domain.holding_of_accepts hfirst)
      (.cons (Domain.holding_of_accepts hsecond) .nil), rfl⟩
  have htotal : ∀ bound : Key, Key.Begins [.integer64, .integer64, .integer64] bound →
      bound.hasNaN = false →
      Key.order.TotalOn ({k | ∃ e ∈ calls, e.1 = k} ∪ {k | some bound = some k}) := by
    intro bound hbegins hnan
    refine (Key.totalOn_begins [.integer64, .integer64, .integer64]).mono ?_
    rintro k (⟨e, he, rfl⟩ | hk)
    · exact hoffered e he
    · obtain rfl := Option.some.inj hk
      exact ⟨hbegins, hnan⟩
  have hlow := htotal low (.cons (Domain.holding_of_accepts (by decide)) .nil) rfl
  have hhigh := htotal high (.cons (Domain.holding_of_accepts (by decide))
    (.cons (Domain.holding_of_accepts (by decide))
      (.cons (Domain.holding_of_accepts (by decide)) .nil))) rfl
  exact ⟨⟨hlow, hhigh⟩, range_insertAll_eq_filter (by decide) calls (some low) (some high) hlow hhigh,
    by decide +kernel, by decide +kernel⟩

end PrimaryIndex

end KeyedRelations
