import Mathlib.Data.List.Induction
import Mathlib.Data.List.Find
import Mathlib.Tactic.SplitIfs

/-!
# Lists without repetitions

`List.eraseDupsBy` leaves out what repeats something that has come before. What it leaves is in the same
order and has no repetitions, and a search finds the same in it.
-/

namespace KeyedRelations

variable {α β : Type} {r : α → α → Bool} {p : α → Bool}

theorem eraseDupsBy_concat (x : α) : (l : List α) →
    (l ++ [x]).eraseDupsBy r =
      if (l.eraseDupsBy r).any (r x) then l.eraseDupsBy r else l.eraseDupsBy r ++ [x]
  | [] => rfl
  | a :: l => by
    rw [List.cons_append, List.eraseDupsBy_cons, List.eraseDupsBy_cons, List.filter_append]
    cases hx : r x a with
    | true => simp [hx]
    | false =>
      rw [List.filter_cons_of_pos (by simp [hx]), List.filter_nil, eraseDupsBy_concat x,
        List.any_cons, hx, Bool.false_or]
      split_ifs <;> rfl
termination_by l => l.length
decreasing_by exact Nat.lt_succ_of_le (List.length_filter_le _ _)

theorem eraseDupsBy_sublist (l : List α) : (l.eraseDupsBy r).Sublist l := by
  induction l using List.reverseRecOn with
  | nil => exact .slnil
  | append_singleton l x ih =>
    rw [eraseDupsBy_concat]
    split_ifs
    · exact ih.trans (List.sublist_append_left l [x])
    · exact ih.append (.refl [x])

theorem eraseDupsBy_subset (l : List α) : l.eraseDupsBy r ⊆ l := (eraseDupsBy_sublist l).subset

theorem pairwise_eraseDupsBy (l : List α) :
    (l.eraseDupsBy r).Pairwise fun a b => r b a = false := by
  induction l using List.reverseRecOn with
  | nil => exact .nil
  | append_singleton l x ih =>
    rw [eraseDupsBy_concat]
    split_ifs with hx
    · exact ih
    · rw [Bool.not_eq_true, List.any_eq_false] at hx
      refine List.pairwise_append.2 ⟨ih, List.pairwise_singleton _ _, ?_⟩
      intro a ha b hb
      rw [List.mem_singleton.1 hb]
      simpa using hx a ha

theorem eraseDupsBy_eq_self {l : List α} (h : l.Pairwise fun a b => r b a = false) :
    l.eraseDupsBy r = l := by
  induction l with
  | nil => rfl
  | cons a l ih =>
    obtain ⟨ha, hl⟩ := List.pairwise_cons.1 h
    rw [List.eraseDupsBy_cons, List.filter_eq_self.2 fun b hb => by simp [ha b hb], ih hl]

theorem map_eraseDupsBy (f : β → α) : (l : List β) →
    (l.map f).eraseDupsBy r = (l.eraseDupsBy fun a b => r (f a) (f b)).map f
  | [] => rfl
  | a :: l => by
    rw [List.map_cons, List.eraseDupsBy_cons, List.eraseDupsBy_cons, List.map_cons, List.filter_map,
      map_eraseDupsBy f]
    rfl
termination_by l => l.length
decreasing_by exact Nat.lt_succ_of_le (List.length_filter_le _ _)

/-- What is left out is found no more often than what it repeats. -/
theorem find?_eraseDupsBy : (l : List α) → (∀ a ∈ l, ∀ b ∈ l, r a b = true → p a = p b) →
    (l.eraseDupsBy r).find? p = l.find? p
  | [], _ => rfl
  | a :: l, h => by
    obtain ⟨-, htail⟩ := List.forall_mem_cons.1 h
    rw [List.eraseDupsBy_cons]
    cases ha : p a with
    | true => rw [List.find?_cons_of_pos ha, List.find?_cons_of_pos ha]
    | false =>
      have hrest : ∀ b ∈ l.filter fun b => decide (r b a = false),
          ∀ c ∈ l.filter fun b => decide (r b a = false), r b c = true → p b = p c := by
        intro b hb c hc
        exact htail b (List.mem_filter.1 hb).1 c (List.mem_cons_of_mem a (List.mem_filter.1 hc).1)
      have hskipped : (l.filter fun b => decide (r b a = false)).find? p = l.find? p := by
        rw [List.find?_filter]
        refine List.find?_congr fun b hb => ?_
        cases hrepeats : r b a with
        | false => simp
        | true =>
          have hb' := htail b hb a List.mem_cons_self hrepeats
          simp [hb', ha]
      rw [List.find?_cons_of_neg (by simp [ha]), List.find?_cons_of_neg (by simp [ha]),
        find?_eraseDupsBy _ hrest, hskipped]
termination_by l => l.length
decreasing_by exact Nat.lt_succ_of_le (List.length_filter_le _ _)

/-- Where only one thing can be found, the order does not matter. -/
theorem find?_of_perm {l l' : List α} (hperm : l.Perm l')
    (hunique : ∀ a ∈ l, ∀ b ∈ l, p a = true → p b = true → a = b) : l.find? p = l'.find? p := by
  cases hfound : l.find? p with
  | none =>
    symm
    rw [List.find?_eq_none] at hfound ⊢
    exact fun a ha => hfound a (hperm.mem_iff.2 ha)
  | some a =>
    have ha := List.mem_of_find?_eq_some hfound
    have hpa := List.find?_some hfound
    cases hfound' : l'.find? p with
    | none => exact absurd hpa (List.find?_eq_none.1 hfound' a (hperm.mem_iff.1 ha))
    | some b =>
      have hb := hperm.mem_iff.2 (List.mem_of_find?_eq_some hfound')
      rw [hunique a ha b hb hpa (List.find?_some hfound')]

end KeyedRelations
