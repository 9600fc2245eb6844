import KeyedRelations.Proofs.Index.Defined

/-!
# Searching for any key

A key that is asked for need not be comparable with those of the tree. As long as the keys below it
stand in front of those that are not, a search that ends has found what stands in the list of the
entries, or that nothing in the list has this key.
-/

namespace KeyedRelations

variable {κ ρ ε α : Type} [LinearOrder α]

/-- A key parts those of `S`: the keys that are below it come first, those that are not come last, and
only the first of these can be the same. -/
structure KeyOrder.Parts (order : KeyOrder κ ε) (place : κ → α) (S : Set κ) (key : κ) : Prop where
  below : ∀ a ∈ S, ∀ b ∈ S, place a ≤ place b →
    order.less b key = .ok true → order.less a key = .ok true
  above : ∀ a ∈ S, ∀ b ∈ S, place a ≤ place b →
    order.less a key = .ok false → order.less b key = .ok false
  same : ∀ b ∈ S, order.same b key = true →
    order.less b key = .ok false ∧ ∀ a ∈ S, place a < place b → order.less a key = .ok true

variable {order : KeyOrder κ ε} {place : κ → α} {S : Set κ} {key : κ}

theorem KeyOrder.Along.same_iff (hS : order.Along place S) {a b : κ} (ha : a ∈ S) (hb : b ∈ S) :
    order.same a b = true ↔ place a = place b := by
  rw [hS.same_eq a ha b hb, decide_eq_true_eq]

theorem KeyOrder.Along.parts (hS : order.Along place S) (hkey : key ∈ S) :
    order.Parts place S key where
  below a ha b hb hle hbelow := by
    rw [hS.less_eq b hb key hkey, Except.ok.injEq, decide_eq_true_eq] at hbelow
    rw [hS.less_eq a ha key hkey, Except.ok.injEq, decide_eq_true_eq]
    exact hle.trans_lt hbelow
  above a ha b hb hle habove := by
    rw [hS.less_eq a ha key hkey, Except.ok.injEq, decide_eq_false_iff_not, not_lt] at habove
    rw [hS.less_eq b hb key hkey, Except.ok.injEq, decide_eq_false_iff_not, not_lt]
    exact habove.trans hle
  same b hb hsame := by
    have hplace := (hS.same_iff hb hkey).1 hsame
    refine ⟨?_, fun a ha hlt => ?_⟩
    · rw [hS.less_eq b hb key hkey, hplace, Except.ok.injEq, decide_eq_false_iff_not]
      exact lt_irrefl _
    · rw [hS.less_eq a ha key hkey, Except.ok.injEq, decide_eq_true_eq]
      exact lt_of_lt_of_eq hlt hplace

/-- Keys that are the same as one key have the same place. -/
theorem KeyOrder.Parts.place_eq (hparts : order.Parts place S key) {a b : κ} (ha : a ∈ S)
    (hb : b ∈ S) (hsame : order.same a key = true) (hsame' : order.same b key = true) :
    place a = place b := by
  by_contra hne
  rcases lt_or_gt_of_ne hne with hlt | hlt
  · have hbelow := (hparts.same b hb hsame').2 a ha hlt
    exact absurd (hbelow.symm.trans (hparts.same a ha hsame).1) (by simp)
  · have hbelow := (hparts.same a ha hsame).2 b hb hlt
    exact absurd (hbelow.symm.trans (hparts.same b hb hsame').1) (by simp)

theorem KeyOrder.Along.definedOn (hS : order.Along place S) : order.DefinedOn S where
  less a ha b hb := ⟨_, hS.less_eq a ha b hb⟩
  greater a ha b hb := ⟨_, hS.greater_eq a ha b hb⟩

namespace Index

/-- A search that ends has told the keys of which the test holds from those of which it does not. -/
theorem boundary_parts {before : κ → Except ε Bool} {keys : List κ}
    (hbelow : keys.Pairwise fun a b => before b = .ok true → before a = .ok true)
    (habove : keys.Pairwise fun a b => before a = .ok false → before b = .ok false)
    {steps low high i : Nat} (hlow : ∀ k ∈ keys.take low, before k = .ok true)
    (hhigh : ∀ k ∈ keys.drop high, before k = .ok false) (hle : low ≤ high)
    (hlength : high ≤ keys.length) (hsteps : high - low ≤ steps)
    (hi : boundary before keys steps low high = .ok i) :
    (∀ k ∈ keys.take i, before k = .ok true) ∧ ∀ k ∈ keys.drop i, before k = .ok false := by
  induction steps generalizing low high with
  | zero =>
    obtain rfl : low = high := by omega
    cases hi
    exact ⟨hlow, hhigh⟩
  | succ steps ih =>
    rw [boundary] at hi
    split_ifs at hi with hlt
    · have hmiddle : (low + high) / 2 < keys.length := by omega
      have hcut : keys = keys.take ((low + high) / 2) ++
          keys[(low + high) / 2] :: keys.drop ((low + high) / 2 + 1) := by
        rw [← List.drop_eq_getElem_cons hmiddle, List.take_append_drop]
      simp only [List.getElem?_eq_getElem hmiddle] at hi
      obtain ⟨answer, hanswer, hi⟩ := exists_of_bind_eq_ok hi
      cases answer with
      | true =>
        refine ih ?_ hhigh (by omega) hlength (by omega) hi
        rw [List.take_succ_eq_append_getElem hmiddle]
        rw [hcut] at hbelow
        obtain ⟨-, -, hfront⟩ := List.pairwise_append.1 hbelow
        refine List.forall_mem_append.2 ⟨fun k hk => ?_, List.forall_mem_singleton.2 hanswer⟩
        exact hfront k hk _ List.mem_cons_self hanswer
      | false =>
        refine ih hlow ?_ (by omega) (by omega) (by omega) hi
        rw [List.drop_eq_getElem_cons hmiddle]
        rw [hcut] at habove
        obtain ⟨-, hback, -⟩ := List.pairwise_append.1 habove
        refine List.forall_mem_cons.2 ⟨hanswer, fun k hk => ?_⟩
        exact (List.pairwise_cons.1 hback).1 k hk hanswer
    · obtain rfl : low = high := by omega
      cases hi
      exact ⟨hlow, hhigh⟩

namespace Node

variable {h : Nat}

/-- How a search goes through a leaf. -/
theorem find?_leaf {left right : List (κ × ρ)}
    (hsearch : firstNotBelow order ((left ++ right).map (·.1)) key = .ok left.length) :
    find? (h := 0) order key (left ++ right) =
      .ok ((right.head?.filter fun e => order.same e.1 key).map (·.2)) := by
  simp only [find?, hsearch]
  cases right with
  | nil => simp [pure, Except.pure, bind, Except.bind]
  | cons e right =>
    cases hsame : order.same e.1 key <;>
      simp [pure, Except.pure, bind, Except.bind, hsame, Option.filter]

theorem focus_plug (child : Node κ ρ h) (after : List ((κ × ρ) × Node κ ρ h))
    (before : List (Node κ ρ h × (κ × ρ))) :
    focus (plug child after before).1 (plug child after before).2 before.length =
        ⟨before, child, after⟩ ∧
      (plug child after before).2[before.length]? = after.head? := by
  induction before with
  | nil => cases after <;> exact ⟨rfl, rfl⟩
  | cons b before ih =>
    obtain ⟨hfocus, hhead⟩ := ih
    rw [plug_cons]
    simp only [List.length_cons, List.getElem?_cons_succ, focus, hfocus, true_and]
    exact hhead

variable {child : Node κ ρ h} {after : List ((κ × ρ) × Node κ ρ h)}
  {before : List (Node κ ρ h × (κ × ρ))}

/-- How a search goes through a branch. -/
theorem find?_plug
    (hsearch : firstNotBelow order (plug child after before).keys key = .ok before.length) :
    (plug child after before).find? order key =
      match after.head? with
      | some (e, _) => if order.same e.1 key then .ok (some e.2) else child.find? order key
      | none => child.find? order key := by
  obtain ⟨hfocus, hhead⟩ := focus_plug child after before
  generalize plug child after before = n at hsearch hfocus hhead
  obtain ⟨first, rest⟩ := n
  have hkeys : rest.map (·.1.1) = keys (h := h + 1) (first, rest) := by
    simp [keys, entries, Function.comp_def]
  rw [find?, hkeys, hsearch]
  dsimp only at hfocus hhead
  simp only [bind, Except.bind, hfocus, hhead]
  cases after <;> rfl

/-- A branch opens at every place among its keys. -/
theorem exists_plug {n : Node κ ρ (h + 1)} {i : Nat} (hi : i ≤ n.keys.length) :
    ∃ child after before, n = plug child after before ∧ before.length = i := by
  obtain ⟨first, rest⟩ := n
  have hlength : i ≤ rest.length := by simpa [keys, entries] using hi
  have hopen := plug_focus first rest i
  have hbefore := length_before_focus first hlength
  generalize focus first rest i = f at hopen hbefore
  obtain ⟨before, child, after⟩ := f
  exact ⟨child, after, before, hopen.symm, hbefore⟩

section Search

variable (hparts : order.Parts place S key)

include hparts

theorem find?_same_of_below {es : List (κ × ρ)} (hkeys : ∀ e ∈ es, e.1 ∈ S)
    (hbelow : ∀ e ∈ es, order.less e.1 key = .ok true) :
    es.find? (fun e => order.same e.1 key) = none := by
  rw [List.find?_eq_none]
  intro e he hsame
  have habove := (hparts.same e.1 (hkeys e he) hsame).1
  exact absurd ((hbelow e he).symm.trans habove) (by simp)

/-- Among ascending entries that are not below the key, only the first one can have it. -/
theorem find?_same_of_above {es : List (κ × ρ)} (hkeys : ∀ e ∈ es, e.1 ∈ S)
    (hascending : Ascending place es) (habove : ∀ e ∈ es, order.less e.1 key = .ok false) :
    es.find? (fun e => order.same e.1 key) = es.head?.filter fun e => order.same e.1 key := by
  cases es with
  | nil => rfl
  | cons e es =>
    obtain ⟨hlt, -⟩ := List.pairwise_cons.1 hascending
    obtain ⟨hhead, htail⟩ := List.forall_mem_cons.1 hkeys
    have hrest : es.find? (fun e => order.same e.1 key) = none := by
      rw [List.find?_eq_none]
      intro a ha hsame
      have hbelow := (hparts.same a.1 (htail a ha) hsame).2 e.1 hhead (hlt a ha)
      exact absurd ((habove e List.mem_cons_self).symm.trans hbelow) (by simp)
    cases hsame : order.same e.1 key <;> simp [hsame, hrest, Option.filter]

/-- Where a search stops among the keys of a node, the keys below the one that is sought end. -/
theorem parts_of_firstNotBelow {n : Node κ ρ h} (hascending : Ascending place n.toList)
    (hkeys : ∀ e ∈ n.toList, e.1 ∈ S) {i : Nat} (hi : firstNotBelow order n.keys key = .ok i) :
    i ≤ n.keys.length ∧ (∀ k ∈ n.keys.take i, order.less k key = .ok true) ∧
      ∀ k ∈ n.keys.drop i, order.less k key = .ok false := by
  have hpairs : n.keys.Pairwise fun a b => a ∈ S ∧ b ∈ S ∧ place a ≤ place b := by
    refine List.pairwise_map.2 ((hascending.sublist (entries_sublist n)).imp_of_mem ?_)
    intro a b ha hb hlt
    exact ⟨hkeys a ((entries_sublist n).subset ha), hkeys b ((entries_sublist n).subset hb), hlt.le⟩
  refine ⟨(boundary_bounds (Nat.zero_le _) hi).2, boundary_parts ?_ ?_ ?_ ?_ (Nat.zero_le _)
    (Nat.le_refl _) (by omega) hi⟩
  · exact hpairs.imp fun ⟨ha, hb, hle⟩ => hparts.below _ ha _ hb hle
  · exact hpairs.imp fun ⟨ha, hb, hle⟩ => hparts.above _ ha _ hb hle
  · simp
  · simp

/-- The entry with a key that lies between the separators around a subtree is the next separator or
stands in the subtree. -/
theorem find?_toList_plug (hascending : Ascending place (plug child after before).toList)
    (hkeys : ∀ e ∈ (plug child after before).toList, e.1 ∈ S)
    (hbefore : ∀ b ∈ before, order.less b.2.1 key = .ok true)
    (hafter : ∀ a ∈ after, order.less a.1.1 key = .ok false) :
    ((plug child after before).toList.find? fun e => order.same e.1 key) =
      match after.head? with
      | some (e, _) =>
        if order.same e.1 key then some e else child.toList.find? fun e => order.same e.1 key
      | none => child.toList.find? fun e => order.same e.1 key := by
  obtain ⟨hleft, -, hright, hbetween⟩ := ascending_plug hascending
  rw [toList_plug] at hkeys ⊢
  obtain ⟨hkeysBefore, hkeysRest⟩ := List.forall_mem_append.1 hkeys
  obtain ⟨hkeysChild, hkeysAfter⟩ := List.forall_mem_append.1 hkeysRest
  have hnone := find?_same_of_below hparts hkeysBefore fun e he => by
    obtain ⟨b, hb, hle⟩ := exists_separator_ge hleft he
    have hmem : b.2 ∈ before.flatMap fun b => b.1.toList ++ [b.2] :=
      List.mem_flatMap.2 ⟨b, hb, by simp⟩
    exact hparts.below _ (hkeysBefore e he) _ (hkeysBefore b.2 hmem) hle (hbefore b hb)
  have hhead := find?_same_of_above hparts hkeysAfter hright fun e he => by
    obtain ⟨a, ha, hle⟩ := exists_separator_le hright he
    have hmem : a.1 ∈ after.flatMap fun a => a.1 :: a.2.toList :=
      List.mem_flatMap.2 ⟨a, ha, List.mem_cons_self⟩
    exact hparts.above _ (hkeysAfter a.1 hmem) _ (hkeysAfter e he) hle (hafter a ha)
  rw [List.find?_append, List.find?_append, hnone, hhead, Option.none_or]
  cases after with
  | nil => simp
  | cons a after =>
    cases hsame : order.same a.1.1 key with
    | false => simp [hsame, Option.filter]
    | true =>
      have ha : a.1 ∈ (a :: after).flatMap fun a => a.1 :: a.2.toList := by simp
      have hinside := find?_same_of_below hparts hkeysChild fun e he =>
        (hparts.same a.1.1 (hkeysAfter a.1 ha) hsame).2 e.1 (hkeysChild e he) (hbetween e he a.1 ha)
      simp [hsame, hinside, Option.filter]

theorem eq_of_find?_leaf {es : List (κ × ρ)} (hascending : Ascending place es)
    (hkeys : ∀ e ∈ es, e.1 ∈ S) {found? : Option ρ}
    (hfind : find? (h := 0) order key es = .ok found?) :
    found? = (es.find? fun e => order.same e.1 key).map (·.2) := by
  obtain ⟨i, hi, -⟩ := exists_of_bind_eq_ok hfind
  obtain ⟨hlength, hleft, hright⟩ :=
    parts_of_firstNotBelow (h := 0) hparts hascending hkeys hi
  change i ≤ (es.map (·.1)).length at hlength
  change ∀ k ∈ (es.map (·.1)).take i, _ at hleft
  change ∀ k ∈ (es.map (·.1)).drop i, _ at hright
  obtain ⟨left, right, rfl, rfl⟩ : ∃ left right, es = left ++ right ∧ left.length = i :=
    ⟨es.take i, es.drop i, (List.take_append_drop i es).symm, by simpa using hlength⟩
  rw [List.map_append, List.take_left' (List.length_map _)] at hleft
  rw [List.map_append, List.drop_left' (List.length_map _)] at hright
  obtain ⟨hkeysLeft, hkeysRight⟩ := List.forall_mem_append.1 hkeys
  obtain ⟨-, hascendingRight, -⟩ := List.pairwise_append.1 hascending
  rw [find?_leaf hi] at hfind
  rw [List.find?_append, find?_same_of_below hparts hkeysLeft (List.forall_mem_map.1 hleft),
    find?_same_of_above hparts hkeysRight hascendingRight (List.forall_mem_map.1 hright),
    Option.none_or]
  exact (Except.ok.inj hfind).symm

/-- A search that ends has found the entry with the same key. -/
theorem eq_of_find? {n : Node κ ρ h} (hascending : Ascending place n.toList)
    (hkeys : ∀ e ∈ n.toList, e.1 ∈ S) {found? : Option ρ}
    (hfind : n.find? order key = .ok found?) :
    found? = (n.toList.find? fun e => order.same e.1 key).map (·.2) := by
  induction h with
  | zero => exact eq_of_find?_leaf hparts hascending hkeys hfind
  | succ h ih =>
    obtain ⟨i, hi⟩ : ∃ i, firstNotBelow order n.keys key = .ok i := by
      obtain ⟨first, rest⟩ := n
      obtain ⟨i, hi, -⟩ := exists_of_bind_eq_ok hfind
      exact ⟨i, by simpa [keys, entries, Function.comp_def] using hi⟩
    obtain ⟨hlength, hleft, hright⟩ := parts_of_firstNotBelow hparts hascending hkeys hi
    obtain ⟨child, after, before, rfl, rfl⟩ := exists_plug hlength
    rw [keys_plug, List.take_left' (List.length_map _)] at hleft
    rw [keys_plug, List.drop_left' (List.length_map _)] at hright
    have hlist := find?_toList_plug hparts hascending hkeys (List.forall_mem_map.1 hleft)
      (List.forall_mem_map.1 hright)
    obtain ⟨-, hchild, -⟩ := ascending_plug hascending
    simp only [toList_plug, List.forall_mem_append] at hkeys
    rw [find?_plug hi] at hfind
    rw [hlist]
    cases after with
    | nil => exact ih hchild hkeys.2.1 hfind
    | cons a after =>
      cases hsame : order.same a.1.1 key with
      | false =>
        simp only [List.head?_cons, hsame] at hfind ⊢
        exact ih hchild hkeys.2.1 hfind
      | true =>
        simp only [List.head?_cons, hsame] at hfind ⊢
        exact (Except.ok.inj hfind).symm

end Search

end Node

end Index

end KeyedRelations
