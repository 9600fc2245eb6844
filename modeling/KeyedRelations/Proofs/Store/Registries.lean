import KeyedRelations.Proofs.Lists.Repetitions
import KeyedRelations.Store.Basic
import Mathlib.Data.String.Basic

/-!
# Registries

A registry that tables are entered into one after the other holds the latest table of every name, in the
order in which the names came up. The names that a session answers to are those of its registry and what
every session has, sorted.
-/

namespace KeyedRelations

namespace Registry

/-- Enters tables one after the other. -/
def enterAll (r : Registry) (entries : List (String × TableId)) : Registry :=
  entries.foldl (fun r entry => r.enter entry.1 entry.2) r

variable (r : Registry) (entries : List (String × TableId))

theorem enterAll_append (more : List (String × TableId)) :
    r.enterAll (entries ++ more) = (r.enterAll entries).enterAll more := List.foldl_append

theorem enterAll_concat (entry : String × TableId) :
    r.enterAll (entries ++ [entry]) = (r.enterAll entries).enter entry.1 entry.2 := by
  simp [enterAll]

theorem find?_cons (entry : String × TableId) (name : String) :
    find? (entry :: r) name = if name = entry.1 then some entry.2 else r.find? name := by
  obtain ⟨other, table⟩ := entry
  by_cases h : name = other
  · simp [find?, h]
  · have hbeq : (name == other) = false := by simpa using h
    simp [find?, List.lookup_cons, hbeq, h]

theorem isSome_find? (name : String) : (r.find? name).isSome ↔ name ∈ r.map (·.1) := by
  induction r with
  | nil => simp [find?]
  | cons entry rest ih =>
    rw [find?_cons, List.map_cons, List.mem_cons]
    by_cases h : name = entry.1
    · simp [h]
    · simpa [h] using ih

/-- Only a name that is new takes a place. -/
theorem map_fst_enter (name : String) (table : TableId) :
    (r.enter name table).map (·.1) =
      if name ∈ r.map (·.1) then r.map (·.1) else r.map (·.1) ++ [name] := by
  induction r with
  | nil => simp [enter]
  | cons entry rest ih =>
    by_cases h : entry.1 = name
    · simp [enter, h]
    · have hne : name ≠ entry.1 := Ne.symm h
      simp only [enter, h, if_false, List.map_cons, ih, List.mem_cons, hne, false_or]
      split_ifs <;> rfl

/-- The names are in the order in which they were first entered. -/
theorem map_fst_enterAll : (enterAll [] entries).map (·.1) = (entries.map (·.1)).eraseDups := by
  induction entries using List.reverseRecOn with
  | nil => rfl
  | append_singleton entries entry ih =>
    rw [enterAll_concat, map_fst_enter, ih, List.map_append]
    unfold List.eraseDups
    rw [List.map_singleton, eraseDupsBy_concat]
    simp

/-- Under every name is the table that was entered last. -/
theorem find?_enterAll (name : String) :
    (enterAll [] entries).find? name = entries.reverse.lookup name := by
  -- The induction is from the right, since the last entry is the first one that is looked at.
  induction entries using List.reverseRecOn with
  | nil => rfl
  | append_singleton entries entry ih =>
    rw [enterAll_concat, List.reverse_append, List.reverse_singleton, List.singleton_append,
      List.lookup_cons]
    by_cases h : name = entry.1
    · rw [h, find?_enter_self, beq_self_eq_true]
    · have hbeq : (name == entry.1) = false := by simpa using h
      rw [find?_enter_of_ne _ _ h, hbeq]
      exact ih

/-- What is found in a registry of different names is what is in it. -/
theorem find?_of_mem {r : Registry} (hr : (r.map (·.1)).Nodup) {entry : String × TableId}
    (h : entry ∈ r) : r.find? entry.1 = some entry.2 := by
  induction r with
  | nil => exact absurd h List.not_mem_nil
  | cons first rest ih =>
    rw [List.map_cons, List.nodup_cons] at hr
    rw [find?_cons]
    rcases List.mem_cons.1 h with rfl | hlater
    · rw [if_pos rfl]
    · have hne : entry.1 ≠ first.1 := by
        intro heq
        exact hr.1 (List.mem_map.2 ⟨entry, hlater, heq⟩)
      rw [if_neg hne]
      exact ih hr.2 hlater

theorem nodup_enterAll : ((enterAll [] entries).map (·.1)).Nodup := by
  rw [map_fst_enterAll]
  exact (pairwise_eraseDupsBy _).imp fun h => (beq_eq_false_iff_ne.1 h).symm

/-- There is one table for every name. -/
theorem map_snd_enterAll : ((enterAll [] entries).map (·.2)).map some =
    (entries.map (·.1)).eraseDups.map fun name => entries.reverse.lookup name := by
  rw [← map_fst_enterAll, List.map_map, List.map_map]
  apply List.map_congr_left
  intro entry hentry
  have hfound := find?_of_mem (nodup_enterAll entries) hentry
  rw [find?_enterAll] at hfound
  exact hfound.symm

end Registry

namespace Session

variable (s : Session) (inherited : List String)

/-- The names of a session are sorted and different. -/
theorem pairwise_names : (s.names inherited).Pairwise (· < ·) := by
  let all := inherited ++ hiddenNames ++ ownNames ++ s.registry.map (·.1)
  have hsorted : (all.mergeSort fun a b => a ≤ b).Pairwise fun a b => decide (a ≤ b) = true := by
    apply List.pairwise_mergeSort
    · intro a b c hab hbc
      exact decide_eq_true ((of_decide_eq_true hab).trans (of_decide_eq_true hbc))
    · intro a b
      simpa using le_total a b
  have hordered : (s.names inherited).Pairwise fun a b => decide (a ≤ b) = true :=
    hsorted.sublist (eraseDupsBy_sublist _)
  have hdifferent : (s.names inherited).Pairwise fun a b => (b == a) = false :=
    pairwise_eraseDupsBy _
  exact hordered.imp₂ (fun a b hle hne => lt_of_le_of_ne (of_decide_eq_true hle)
    (beq_eq_false_iff_ne.1 hne).symm) hdifferent

theorem mem_names (name : String) :
    name ∈ s.names inherited ↔ isOwn inherited name = true ∨ s.has name = true := by
  unfold names isOwn has
  rw [List.mem_eraseDups, List.mem_mergeSort, List.mem_append, List.contains_iff_mem,
    Registry.isSome_find?]

section

variable {s : Session} {name : String} {entries : List (String × TableId)}
  (hregistry : s.registry = Registry.enterAll [] entries)

include hregistry

theorem has_iff_mem (name : String) : s.has name = true ↔ name ∈ entries.map (·.1) := by
  unfold has
  rw [Registry.isSome_find?, hregistry, Registry.map_fst_enterAll, List.mem_eraseDups]

theorem find?_missing (h : name ∉ entries.map (·.1)) : s.registry.find? name = none := by
  rw [← has_iff_mem hregistry] at h
  simpa [has] using h

end

end Session

end KeyedRelations
