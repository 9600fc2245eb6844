import KeyedRelations.Proofs.Index.Passage
import Mathlib.Data.Set.Insert
import Mathlib.Order.Basic

/-!
# Trees of ordered keys

Where keys are compared by their places on a line, a tree whose entries ascend from left to right is
searched without failure, and the search finds what stands in the list of the entries. An insertion
of a new key puts it between the lower and the higher keys.
-/

namespace KeyedRelations

variable {κ ρ ε α : Type} [LinearOrder α]

/-- The keys of `S` are compared by their places on a line, and are the same where the places
are. -/
structure KeyOrder.Along (order : KeyOrder κ ε) (place : κ → α) (S : Set κ) : Prop where
  less_eq : ∀ a ∈ S, ∀ b ∈ S, order.less a b = .ok (decide (place a < place b))
  greater_eq : ∀ a ∈ S, ∀ b ∈ S, order.greater a b = .ok (decide (place b < place a))
  same_eq : ∀ a ∈ S, ∀ b ∈ S, order.same a b = decide (place a = place b)

/-- A strict total order that agrees with sameness. -/
def KeyOrder.TotalOn (order : KeyOrder κ ε) (S : Set κ) : Prop :=
  ∃ (line : Type) (_ : LinearOrder line) (place : κ → line), order.Along place S

theorem KeyOrder.Along.mono {order : KeyOrder κ ε} {place : κ → α} {S S' : Set κ}
    (hS : order.Along place S) (hsub : S' ⊆ S) : order.Along place S' where
  less_eq a ha b hb := hS.less_eq a (hsub ha) b (hsub hb)
  greater_eq a ha b hb := hS.greater_eq a (hsub ha) b (hsub hb)
  same_eq a ha b hb := hS.same_eq a (hsub ha) b (hsub hb)

theorem KeyOrder.TotalOn.mono {order : KeyOrder κ ε} {S S' : Set κ} (hS : order.TotalOn S)
    (hsub : S' ⊆ S) : order.TotalOn S' := by
  obtain ⟨line, hline, place, halong⟩ := hS
  exact ⟨line, hline, place, halong.mono hsub⟩

namespace Index

/-- Entries with ascending keys. -/
def Ascending (place : κ → α) (es : List (κ × ρ)) : Prop :=
  es.Pairwise fun a b => place a.1 < place b.1

/-! ## Searching a list -/

theorem exists_cut {β : Type} {p : β → Bool} {l : List β}
    (hmono : l.Pairwise fun a b => p b = true → p a = true) :
    ∃ left right, l = left ++ right ∧ (∀ a ∈ left, p a = true) ∧ ∀ a ∈ right, p a = false := by
  induction l with
  | nil => exact ⟨[], [], rfl, by simp, by simp⟩
  | cons a l ih =>
    obtain ⟨hhead, htail⟩ := List.pairwise_cons.1 hmono
    cases ha : p a with
    | false =>
      refine ⟨[], a :: l, rfl, by simp, List.forall_mem_cons.2 ⟨ha, fun b hb => ?_⟩⟩
      by_contra hpb
      have hpa := hhead b hb (by simpa using hpb)
      simp [ha] at hpa
    | true =>
      obtain ⟨left, right, rfl, hleft, hright⟩ := ih htail
      exact ⟨a :: left, right, rfl, List.forall_mem_cons.2 ⟨ha, hleft⟩, hright⟩

/-- Halving finds the end of the stretch on which the test holds. -/
theorem boundary_append {before : κ → Except ε Bool} {left right : List κ}
    (hleft : ∀ k ∈ left, before k = .ok true) (hright : ∀ k ∈ right, before k = .ok false)
    {steps low high : Nat} (hlow : low ≤ left.length) (hhigh : left.length ≤ high)
    (hlength : high ≤ (left ++ right).length) (hsteps : high - low ≤ steps) :
    boundary before (left ++ right) steps low high = .ok left.length := by
  induction steps generalizing low high with
  | zero =>
    obtain rfl : low = left.length := by omega
    rfl
  | succ steps ih =>
    rw [boundary]
    split_ifs with hlt
    · have hmiddle : (low + high) / 2 < (left ++ right).length := by omega
      simp only [List.getElem?_eq_getElem hmiddle]
      by_cases hside : (low + high) / 2 < left.length
      · have hbefore : before (left ++ right)[(low + high) / 2] = .ok true := by
          rw [List.getElem_append_left hside]
          exact hleft _ (List.getElem_mem hside)
        rw [hbefore]
        exact ih (by omega) hhigh hlength (by omega)
      · have hbefore : before (left ++ right)[(low + high) / 2] = .ok false := by
          rw [List.getElem_append_right (by omega)]
          exact hright _ (List.getElem_mem _)
        rw [hbefore]
        exact ih hlow (by omega) (by omega) (by omega)
    · obtain rfl : low = left.length := by omega
      rfl

variable {order : KeyOrder κ ε} {place : κ → α} {S : Set κ} {key : κ}

section Search

variable (hS : order.Along place S) (hkey : key ∈ S) {left right : List κ}
  (hkeys : ∀ k ∈ left ++ right, k ∈ S)

include hS hkey hkeys

theorem firstAbove_append (hleft : ∀ k ∈ left, place k ≤ place key)
    (hright : ∀ k ∈ right, place key < place k) :
    firstAbove order (left ++ right) key = .ok left.length := by
  refine boundary_append ?_ ?_ (Nat.zero_le _) (by simp) (Nat.le_refl _) (by omega)
  · intro k hk
    rw [hS.less_eq key hkey k (hkeys k (List.mem_append_left _ hk))]
    simpa [bind, Except.bind, pure, Except.pure] using hleft k hk
  · intro k hk
    rw [hS.less_eq key hkey k (hkeys k (List.mem_append_right _ hk))]
    simpa [bind, Except.bind, pure, Except.pure] using hright k hk

end Search

namespace Node

variable {h : Nat}

/-! ## Branches of ascending entries -/

theorem entries_sublist (n : Node κ ρ h) : n.entries.Sublist n.toList := by
  cases h with
  | zero => exact List.Sublist.refl _
  | succ h =>
    obtain ⟨first, rest⟩ := n
    refine List.Sublist.trans ?_ (List.sublist_append_right first.toList _)
    change (rest.map (·.1)).Sublist _
    induction rest with
    | nil => exact List.Sublist.refl _
    | cons e rest ih =>
      rw [List.map_cons, List.flatMap_cons, List.cons_append]
      exact (ih.trans (List.sublist_append_right _ _)).cons_cons e.1

theorem keys_mem {n : Node κ ρ h} (hkeys : ∀ e ∈ n.toList, e.1 ∈ S) : ∀ k ∈ n.keys, k ∈ S :=
  List.forall_mem_map.2 fun e he => hkeys e ((entries_sublist n).subset he)

theorem keys_plug (child : Node κ ρ h) (after : List ((κ × ρ) × Node κ ρ h))
    (before : List (Node κ ρ h × (κ × ρ))) :
    (plug child after before).keys = before.map (·.2.1) ++ after.map (·.1.1) := by
  simp [keys, Function.comp_def]

variable {child : Node κ ρ h} {after : List ((κ × ρ) × Node κ ρ h)}
  {before : List (Node κ ρ h × (κ × ρ))}

theorem exists_separator_ge (hascending : Ascending place
      (before.flatMap fun b => b.1.toList ++ [b.2])) {e : κ × ρ}
    (he : e ∈ before.flatMap fun b => b.1.toList ++ [b.2]) :
    ∃ b ∈ before, place e.1 ≤ place b.2.1 := by
  obtain ⟨b, hb, he⟩ := List.mem_flatMap.1 he
  refine ⟨b, hb, ?_⟩
  have hpiece := (List.pairwise_flatMap.1 hascending).1 b hb
  rcases List.mem_append.1 he with hinside | hlast
  · exact ((List.pairwise_append.1 hpiece).2.2 e hinside b.2 (List.mem_singleton.2 rfl)).le
  · obtain rfl := List.mem_singleton.1 hlast
    exact le_rfl

theorem exists_separator_le (hascending : Ascending place
      (after.flatMap fun a => a.1 :: a.2.toList)) {e : κ × ρ}
    (he : e ∈ after.flatMap fun a => a.1 :: a.2.toList) :
    ∃ a ∈ after, place a.1.1 ≤ place e.1 := by
  obtain ⟨a, ha, he⟩ := List.mem_flatMap.1 he
  refine ⟨a, ha, ?_⟩
  have hpiece := (List.pairwise_flatMap.1 hascending).1 a ha
  rcases List.mem_cons.1 he with rfl | hinside
  · exact le_rfl
  · exact ((List.pairwise_cons.1 hpiece).1 e hinside).le

theorem ascending_plug (hascending : Ascending place (plug child after before).toList) :
    Ascending place (before.flatMap fun b => b.1.toList ++ [b.2]) ∧
      Ascending place child.toList ∧
      Ascending place (after.flatMap fun a => a.1 :: a.2.toList) ∧
      ∀ e ∈ child.toList, ∀ a ∈ after.flatMap fun a => a.1 :: a.2.toList,
        place e.1 < place a.1 := by
  rw [toList_plug] at hascending
  obtain ⟨hbefore, hrest, -⟩ := List.pairwise_append.1 hascending
  obtain ⟨hchild, hafter, hbetween⟩ := List.pairwise_append.1 hrest
  exact ⟨hbefore, hchild, hafter, hbetween⟩

/-- Where a subtree is cut, the entry in the middle separates the entries of its parts. -/
theorem ascending_split {t : Nat} {left right : Node κ ρ h} {middle : κ × ρ}
    (hascending : Ascending place (plug child after before).toList)
    (hcut : child.split? t = some (left, middle, right)) :
    Ascending place left.toList ∧ Ascending place right.toList ∧
      (∀ e ∈ left.toList, place e.1 < place middle.1) ∧
      ∀ e ∈ right.toList, place middle.1 < place e.1 := by
  obtain ⟨-, hchild, -⟩ := ascending_plug hascending
  rw [toList_of_split? hcut] at hchild
  obtain ⟨hleft, hrest, hbelow⟩ := List.pairwise_append.1 hchild
  obtain ⟨habove, hright⟩ := List.pairwise_cons.1 hrest
  exact ⟨hleft, hright, fun e he => hbelow e he middle List.mem_cons_self, habove⟩

/-! ## Inserting -/

/-- The place of a key among the keys of a node is found, and says which of them are above it. -/
theorem firstAbove_keys (hS : order.Along place S) (hkey : key ∈ S) {n : Node κ ρ h}
    (hascending : Ascending place n.toList) (hkeys : ∀ e ∈ n.toList, e.1 ∈ S) :
    (∃ i, firstAbove order n.keys key = .ok i) ∧
      ∀ left right, n.keys = left ++ right → firstAbove order n.keys key = .ok left.length →
        (∀ k ∈ left, place k ≤ place key) ∧ ∀ k ∈ right, place key < place k := by
  have hkeysHere := keys_mem hkeys
  have hmono : n.keys.Pairwise fun a b =>
      decide (place b ≤ place key) = true → decide (place a ≤ place key) = true := by
    refine List.pairwise_map.2 ((hascending.sublist (entries_sublist n)).imp fun hlt hb => ?_)
    simpa using hlt.le.trans (by simpa using hb)
  obtain ⟨left, right, hcut, hleft, hright⟩ := exists_cut hmono
  simp only [decide_eq_true_eq, decide_eq_false_iff_not, not_le] at hleft hright
  rw [hcut] at hkeysHere ⊢
  have hsearch := firstAbove_append hS hkey hkeysHere hleft hright
  refine ⟨⟨_, hsearch⟩, fun left' right' hcut' hsearch' => ?_⟩
  have hlength : left.length = left'.length := by simpa [hsearch] using hsearch'
  obtain ⟨rfl, rfl⟩ := List.append_inj hcut' hlength
  exact ⟨hleft, hright⟩

/-- Entries before and after a new entry is put among them where it belongs. -/
def Placed (place : κ → α) (key : κ) (row : ρ) (es es' : List (κ × ρ)) : Prop :=
  ∃ left right, es = left ++ right ∧ es' = left ++ (key, row) :: right ∧
    (∀ e ∈ left, place e.1 < place key) ∧ ∀ e ∈ right, place key < place e.1

theorem Placed.within {row : ρ} {es es' left right : List (κ × ρ)}
    (hplaced : Placed place key row es es') (hleft : ∀ e ∈ left, place e.1 < place key)
    (hright : ∀ e ∈ right, place key < place e.1) :
    Placed place key row (left ++ (es ++ right)) (left ++ (es' ++ right)) := by
  obtain ⟨l, r, rfl, rfl, hl, hr⟩ := hplaced
  exact ⟨left ++ l, r ++ right, by simp, by simp, List.forall_mem_append.2 ⟨hleft, hl⟩,
    List.forall_mem_append.2 ⟨hr, hright⟩⟩

section Insert

variable (hS : order.Along place S) (hkey : key ∈ S)

include hS hkey

theorem sides_of_firstAbove (hascending : Ascending place (plug child after before).toList)
    (hkeys : ∀ e ∈ (plug child after before).toList, e.1 ∈ S)
    (hnew : ∀ e ∈ (plug child after before).toList, place e.1 ≠ place key)
    (hsearch : firstAbove order (plug child after before).keys key = .ok before.length) :
    (∀ e ∈ before.flatMap fun b => b.1.toList ++ [b.2], place e.1 < place key) ∧
      ∀ e ∈ after.flatMap fun a => a.1 :: a.2.toList, place key < place e.1 := by
  obtain ⟨hle, hlt⟩ := (firstAbove_keys hS hkey hascending hkeys).2 (before.map fun b => b.2.1)
    (after.map fun a => a.1.1) (keys_plug child after before)
    (by rw [List.length_map]; exact hsearch)
  obtain ⟨hleft, -, hright, -⟩ := ascending_plug hascending
  rw [toList_plug] at hnew
  constructor
  · intro e he
    obtain ⟨b, hb, hseparator⟩ := exists_separator_ge hleft he
    exact lt_of_le_of_ne (hseparator.trans (hle b.2.1 (List.mem_map_of_mem hb)))
      (hnew e (List.mem_append_left _ he))
  · intro e he
    obtain ⟨a, ha, hseparator⟩ := exists_separator_le hright he
    exact (hlt a.1.1 (List.mem_map_of_mem ha)).trans_le hseparator

theorem placed_insert_leaf (t : Nat) (row : ρ) {es : List (κ × ρ)} (hascending : Ascending place es)
    (hkeys : ∀ e ∈ es, e.1 ∈ S) (hnew : ∀ e ∈ es, place e.1 ≠ place key) :
    (insert (h := 0) order t key row es).2 = .ok () ∧
      Placed place key row es (insert (h := 0) order t key row es).1 := by
  obtain ⟨⟨i, hi⟩, hcut⟩ := firstAbove_keys (h := 0) hS hkey hascending hkeys
  rcases insert_leaf order key row t es with ⟨cause, hsearch, -⟩ | ⟨left, right, rfl, hsearch, heq⟩
  · exact absurd (hsearch.symm.trans hi) (by simp)
  · obtain ⟨hleft, hright⟩ := hcut (left.map Prod.fst) (right.map Prod.fst) List.map_append
      (by rw [List.length_map]; exact hsearch)
    rw [heq]
    refine ⟨rfl, left, right, rfl, rfl, fun e he => ?_, fun e he => ?_⟩
    · exact lt_of_le_of_ne (hleft e.1 (List.mem_map_of_mem he))
        (hnew e (List.mem_append_left right he))
    · exact hright e.1 (List.mem_map_of_mem he)

/-- An insertion of a new key never fails, and puts its entry between the lower and the higher
keys. -/
theorem placed_insert {t : Nat} (ht : 2 ≤ t) (row : ρ) {n : Node κ ρ h}
    (hascending : Ascending place n.toList) (hkeys : ∀ e ∈ n.toList, e.1 ∈ S)
    (hnew : ∀ e ∈ n.toList, place e.1 ≠ place key) :
    (n.insert order t key row).2 = .ok () ∧
      Placed place key row n.toList (n.insert order t key row).1.toList := by
  induction h with
  | zero => exact placed_insert_leaf hS hkey t row hascending hkeys hnew
  | succ h ih =>
    have hpassage := passage_insert order key row ht n
    generalize n.insert order t key row = outcome at hpassage ⊢
    cases hpassage with
    | refused search =>
      obtain ⟨i, hi⟩ := (firstAbove_keys hS hkey hascending hkeys).1
      exact absurd (search.symm.trans hi) (by simp)
    | @through child after before search _ =>
      obtain ⟨hleft, hright⟩ := sides_of_firstAbove hS hkey hascending hkeys hnew search
      obtain ⟨-, hchild, -⟩ := ascending_plug hascending
      simp only [toList_plug, List.forall_mem_append] at hkeys hnew ⊢
      obtain ⟨hok, hplaced⟩ := ih hchild hkeys.2.1 hnew.2.1
      exact ⟨hok, hplaced.within hleft hright⟩
    | @stuck child after before left middle right cause search _ cut side =>
      simp only [toList_plug, toList_of_split? cut, List.forall_mem_append,
        List.forall_mem_cons] at hkeys
      rw [hS.greater_eq key hkey middle.1 hkeys.2.1.2.1] at side
      exact absurd side (by simp)
    | @rightward child after before left middle right search _ cut side =>
      obtain ⟨hleft, hright⟩ := sides_of_firstAbove hS hkey hascending hkeys hnew search
      obtain ⟨-, hparts, hbelow, -⟩ := ascending_split hascending cut
      simp only [toList_plug, toList_of_split? cut, List.forall_mem_append,
        List.forall_mem_cons] at hkeys hnew
      rw [hS.greater_eq key hkey middle.1 hkeys.2.1.2.1] at side
      have hmiddle : place middle.1 < place key := by simpa using side
      obtain ⟨hok, hplaced⟩ := ih hparts hkeys.2.1.2.2 hnew.2.1.2.2
      have hlower : ∀ e ∈ (before.flatMap fun b => b.1.toList ++ [b.2]) ++ (left.toList ++ [middle]),
          place e.1 < place key := by
        refine List.forall_mem_append.2 ⟨hleft, List.forall_mem_append.2 ⟨?_, ?_⟩⟩
        · intro e he
          exact (hbelow e he).trans hmiddle
        · exact List.forall_mem_singleton.2 hmiddle
      refine ⟨hok, ?_⟩
      simpa [toList_plug, toList_of_split? cut] using hplaced.within hlower hright
    | @leftward child after before left middle right search _ cut side =>
      obtain ⟨hleft, hright⟩ := sides_of_firstAbove hS hkey hascending hkeys hnew search
      obtain ⟨hparts, -, -, habove⟩ := ascending_split hascending cut
      simp only [toList_plug, toList_of_split? cut, List.forall_mem_append,
        List.forall_mem_cons] at hkeys hnew
      rw [hS.greater_eq key hkey middle.1 hkeys.2.1.2.1] at side
      have hmiddle : place key < place middle.1 :=
        lt_of_le_of_ne (by simpa using side) (Ne.symm hnew.2.1.2.1)
      obtain ⟨hok, hplaced⟩ := ih hparts hkeys.2.1.1 hnew.2.1.1
      have hupper : ∀ e ∈ (middle :: right.toList) ++ after.flatMap fun a => a.1 :: a.2.toList,
          place key < place e.1 := by
        refine List.forall_mem_append.2 ⟨List.forall_mem_cons.2 ⟨hmiddle, ?_⟩, hright⟩
        intro e he
        exact hmiddle.trans (habove e he)
      refine ⟨hok, ?_⟩
      simpa [toList_plug, toList_of_split? cut] using hplaced.within hleft hupper

end Insert

end Node

end Index

end KeyedRelations
