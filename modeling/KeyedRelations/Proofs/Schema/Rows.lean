import KeyedRelations.Proofs.Key.Line
import KeyedRelations.Proofs.Schema.Definition
import KeyedRelations.Schema.Derive
import Mathlib.Data.List.Forall2

/-!
# The rows of a schema

A row that a schema accepts is a tuple with a fitting value for each column. Its key has a fitting
value for each key column.
-/

namespace KeyedRelations

/-- Values that fit the domains one by one. -/
def Fitting (domains : List Domain) (t : Tuple) : Prop :=
  List.Forall₂ (fun d v => d.accepts v = true) domains t

theorem Fitting.typed {domains : List Domain} {t : Tuple} (hfit : Fitting domains t) :
    Key.Typed domains t :=
  hfit.imp fun _ _ => Domain.holding_of_accepts

namespace Schema

variable {schema : Schema} {t : Tuple}

theorem firstUnfit?_eq_none {columns : List Column} (hlength : t.length = columns.length)
    (position : Nat) :
    firstUnfit? position columns t = none ↔ Fitting (columns.map (·.domain)) t := by
  induction columns generalizing t position with
  | nil =>
    obtain rfl := List.length_eq_zero_iff.1 hlength
    exact iff_of_true rfl .nil
  | cons c columns ih =>
    cases t with
    | nil => simp at hlength
    | cons v t =>
      have hrest := ih (Nat.succ.inj hlength) (position + 1)
      unfold Fitting at hrest ⊢
      rw [List.map_cons, List.forall₂_cons, ← hrest, firstUnfit?]
      split_ifs with haccepts <;> simp [haccepts]

/-- The schema accepts a row whose values fit the columns, and stores them as they are. -/
theorem validate_eq_ok {row : Row} :
    schema.validate row = .ok t ↔ row.values = t ∧ Fitting schema.domains t := by
  unfold validate arity domains
  constructor
  · intro h
    dsimp only at h
    split_ifs at h with hlength
    split at h
    · cases h
    · rename_i hfit
      obtain rfl : row.values = t := by simpa using h
      exact ⟨rfl, (firstUnfit?_eq_none (not_ne_iff.1 hlength) 0).1 hfit⟩
  · rintro ⟨rfl, hfit⟩
    have hlength : row.values.length = schema.columns.length := by
      simpa using hfit.length_eq.symm
    simp [hlength, (firstUnfit?_eq_none hlength 0).2 hfit]

theorem validate_tuple (hfit : Fitting schema.domains t) :
    schema.validate (.tuple t) = .ok t :=
  validate_eq_ok.2 ⟨rfl, hfit⟩

theorem length_domains : schema.domains.length = schema.arity := List.length_map _

/-- The values at some positions fit the domains at the same positions. -/
theorem fitting_pick (hfit : Fitting schema.domains t) {positions : List Nat}
    (hpositions : ∀ i ∈ positions, i < schema.arity) :
    Fitting (positions.filterMap fun i => schema.domains[i]?) (t.pick positions) := by
  induction positions with
  | nil => exact .nil
  | cons i positions ih =>
    obtain ⟨hhead, hrest⟩ := List.forall_mem_cons.1 hpositions
    have hi : i < schema.domains.length := length_domains.symm ▸ hhead
    have hlt : i < t.length := hfit.length_eq ▸ hi
    have hdomain : schema.domains[i]? = some schema.domains[i] := List.getElem?_eq_getElem hi
    unfold Tuple.pick at ih ⊢
    rw [List.filterMap_cons_some hdomain, List.map_cons, Tuple.cell_of_lt t hlt]
    exact .cons (hfit.get hi hlt) (ih hrest)

/-- The key of a row has a fitting value for each key column. -/
theorem fitting_keyOf (hfit : Fitting schema.domains t) :
    Fitting schema.keyDomains (schema.keyOf t) :=
  fitting_pick hfit fun _ hi => keyPositions_lt hi

end Schema

end KeyedRelations
