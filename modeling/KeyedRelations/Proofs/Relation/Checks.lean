import KeyedRelations.Proofs.Relation.Scans
import KeyedRelations.Proofs.Table.Loading

/-!
# Checks

Before an operator looks at any row, it checks its arguments against the schemas. The faults of checks
are of a few kinds, and a check that is passed tells where columns are and that keys fit.
-/

namespace KeyedRelations

/-- The faults that checks of arguments and schemas report. -/
inductive Fault.OfCheck : Fault → Prop
  | definition (cause : DefinitionFault) : OfCheck (.definition cause)
  | mismatch (cause : MismatchFault) : OfCheck (.mismatch cause)
  | unresolved (names available : List String) : OfCheck (.unresolved names available)
  | condition (text : String) (cause : ConditionFault) : OfCheck (.condition text cause)
  | numeralLength (digits : Nat) : OfCheck (.numeralLength digits)
  | typing (cause : TypeFault) : OfCheck (.typing cause)
  | notASequence (kind : String) : OfCheck (.notASequence kind)
  | notAName (position : Nat) (kind : String) : OfCheck (.notAName position kind)
  | absent (number : Nat) : OfCheck (.absent number)

/-- Whether a computation fails only as checks do. -/
def Checked {α : Type} (x : Except Fault α) : Prop := ∀ fault, x = .error fault → fault.OfCheck

/-! ## Rules -/

section Rules

variable {α β : Type} {x : Except Fault α}

theorem checked_ok (a : α) : Checked (.ok a : Except Fault α) := fun _ h => nomatch h

theorem Fault.OfCheck.checked {fault : Fault} (h : fault.OfCheck) :
    Checked (.error fault : Except Fault α) := by
  intro other heq
  obtain rfl := Except.error.inj heq
  exact h

theorem Checked.bind {f : α → Except Fault β} (hx : Checked x) (hf : ∀ a, Checked (f a)) :
    Checked (x >>= f) := by
  cases x with
  | ok a => exact hf a
  | error fault => exact (hx fault rfl).checked

end Rules

/-! ## Checks -/

namespace Schema

variable {schema : Schema}

theorem checked_define (columns : List Column) (key : List String) : Checked (define columns key) := by
  intro fault h
  obtain ⟨cause, rfl⟩ := error_define h
  exact .definition cause

theorem checked_positions (schema : Schema) (names : List String) :
    Checked (schema.positions names) := by
  unfold positions
  split
  · exact checked_ok _
  · exact (Fault.OfCheck.unresolved _ _).checked

theorem checked_resolve (schema : Schema) (name : String) : Checked (schema.resolve name) := by
  unfold resolve
  split
  · exact checked_ok _
  · exact (Fault.OfCheck.unresolved _ _).checked

theorem checked_project (schema : Schema) (names : List String) : Checked (schema.project names) :=
  (schema.checked_positions names).bind fun _ => checked_define _ _

theorem checked_coerceKey (schema : Schema) (v : Value) : Checked (schema.coerceKey v) := by
  unfold coerceKey
  dsimp only
  split_ifs
  · exact (Fault.OfCheck.typing _).checked
  · split
    · exact (Fault.OfCheck.typing _).checked
    · exact checked_ok _

/-- What a name is resolved to stands at the position. -/
theorem getElem?_of_resolve {name : String} {i : Nat} {column : Column}
    (h : schema.resolve name = .ok (i, column)) : schema.columns[i]? = some column := by
  unfold resolve attributes at h
  split at h
  · rename_i found hfound
    cases h
    generalize schema.columns = columns at hfound ⊢
    induction columns with
    | nil => cases hfound
    | cons first columns ih =>
      rw [List.find?_cons] at hfound
      rw [List.map_cons, List.idxOf_cons]
      cases hname : first.name == name with
      | true =>
        rw [hname] at hfound
        exact hfound
      | false =>
        rw [hname] at hfound
        exact ih hfound
  · cases h

theorem name_of_resolve {name : String} {i : Nat} {column : Column}
    (h : schema.resolve name = .ok (i, column)) : column.name = name := by
  unfold resolve at h
  split at h
  · rename_i found hfound
    cases h
    simpa using List.find?_some hfound
  · cases h

/-- A name is resolved to the one column that has it. -/
theorem resolve_eq_ok_iff {name : String} {i : Nat} {column : Column} :
    schema.resolve name = .ok (i, column) ↔
      schema.columns[i]? = some column ∧ column.name = name := by
  refine ⟨fun h => ⟨getElem?_of_resolve h, name_of_resolve h⟩, ?_⟩
  rintro ⟨hcolumn, rfl⟩
  cases hfound : schema.resolve column.name with
  | error fault =>
    unfold resolve at hfound
    split at hfound
    · cases hfound
    · rename_i hnone
      have habsent := List.find?_eq_none.1 hnone column (List.mem_of_getElem? hcolumn)
      exact absurd (beq_self_eq_true column.name) habsent
  | ok found =>
    obtain ⟨j, other⟩ := found
    have hother := getElem?_of_resolve hfound
    have hsame : schema.position? column.name = some j :=
      name_of_resolve hfound ▸ position?_of_getElem? hother
    obtain rfl := Option.some.inj (hsame.symm.trans (position?_of_getElem? hcolumn))
    obtain rfl := Option.some.inj (hother.symm.trans hcolumn)
    rfl
theorem domain_of_resolve {name : String} {i : Nat} {column : Column}
    (h : schema.resolve name = .ok (i, column)) : schema.domains[i]? = some column.domain := by
  unfold domains
  rw [List.getElem?_map, getElem?_of_resolve h]
  rfl

theorem fitting_of_firstUnfitKey? {domains : List Domain} {key : Key}
    (hlength : key.length = domains.length) {position : Nat}
    (h : firstUnfitKey? position domains key = none) : Fitting domains key := by
  induction domains generalizing key position with
  | nil =>
    obtain rfl := List.length_eq_zero_iff.1 hlength
    exact .nil
  | cons d domains ih =>
    cases key with
    | nil => simp at hlength
    | cons v key =>
      unfold firstUnfitKey? at h
      split_ifs at h with haccepts
      exact .cons haccepts (ih (Nat.succ.inj hlength) h)

/-- A value that stands for a key has fitting values for the key columns. -/
theorem fitting_of_coerceKey {v : Value} {key : Key} (h : schema.coerceKey v = .ok key) :
    Fitting schema.keyDomains key := by
  unfold coerceKey at h
  dsimp only at h
  split_ifs at h with hlength
  split at h
  · cases h
  · rename_i hfit
    obtain rfl := Except.ok.inj h
    exact fitting_of_firstUnfitKey? (not_ne_iff.1 hlength) hfit

end Schema

theorem Comparison.checked_split (condition : String) : Checked (split condition) := by
  unfold split
  split
  · split
    · exact checked_ok _
    · exact (Fault.OfCheck.condition _ _).checked
  · exact (Fault.OfCheck.condition _ _).checked

theorem Comparison.checked_ofSelection (condition : String) : Checked (ofSelection condition) := by
  apply (checked_split condition).bind
  rintro ⟨left, operator, right⟩
  dsimp only
  split
  · exact (Fault.OfCheck.condition _ _).checked
  · split_ifs
    · exact (Fault.OfCheck.numeralLength _).checked
    · exact checked_ok _

theorem Comparison.checked_ofJoin (condition : String) : Checked (ofJoin condition) :=
  (checked_split condition).bind fun _ => checked_ok _

/-- A condition on a column compares it with a whole number. -/
theorem Comparison.right_of_ofSelection {condition : String} {c : Comparison}
    (h : ofSelection condition = .ok c) : ∃ n : Int, c.right = .literal n := by
  obtain ⟨⟨left, operator, right⟩, -, h⟩ := exists_of_bind_eq_ok h
  dsimp only at h
  split at h
  · cases h
  · split_ifs at h
    · cases h
    · cases h
      exact ⟨_, rfl⟩

end KeyedRelations
