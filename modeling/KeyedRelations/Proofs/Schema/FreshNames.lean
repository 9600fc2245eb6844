import KeyedRelations.Proofs.Schema.Definition
import KeyedRelations.Proofs.Text.Decimal
import KeyedRelations.Schema.Derive
import Mathlib.Data.List.Perm.Subperm
import Mathlib.Order.Bounds.Defs

/-!
# Fresh names

A column whose name is used gets the least number from 2 on behind its name that makes it free. There
is one, since the candidates differ and there are more of them than used names. Columns are named from
left to right and each name counts as used from there on, so the names of all columns are distinct and
none is taken, and a schema can always be disambiguated.
-/

namespace KeyedRelations.Schema

open Text

/-! ## One name -/

/-- What a column called `name` is called when the names in `used` are gone. -/
inductive FirstFree (used : List String) (name : String) : String → Prop
  | kept (hfree : name ∉ used) : FirstFree used name name
  | numbered {n : Nat} (hused : name ∈ used)
      (hleast : IsLeast {n : Nat | 2 ≤ n ∧ name ++ decimal n ∉ used} n) :
      FirstFree used name (name ++ decimal n)

theorem FirstFree.notMem {used : List String} {name new : String} (h : FirstFree used name new) :
    new ∉ used := by
  cases h with
  | kept hfree => exact hfree
  | numbered _ hleast => exact hleast.1.2

/-- Only what is used matters, not the order in which it is listed. -/
theorem FirstFree.congr {used other : List String} {name new : String}
    (hsame : ∀ x, x ∈ used ↔ x ∈ other) (h : FirstFree used name new) :
    FirstFree other name new := by
  cases h with
  | kept hfree => exact .kept ((hsame name).not.1 hfree)
  | numbered hused hleast =>
    refine .numbered ((hsame name).1 hused) ?_
    simpa only [← hsame] using hleast

theorem FirstFree.eq_self_iff {used : List String} {name new : String}
    (h : FirstFree used name new) : new = name ↔ name ∉ used := by
  constructor
  · rintro rfl
    exact h.notMem
  · intro hfree
    cases h with
    | kept _ => rfl
    | numbered hused _ => exact absurd hused hfree

theorem FirstFree.exists_number {used : List String} {name new : String}
    (h : FirstFree used name new) (hused : name ∈ used) :
    ∃ n : Nat, IsLeast {n : Nat | 2 ≤ n ∧ name ++ decimal n ∉ used} n ∧
      new = name ++ decimal n := by
  cases h with
  | kept hfree => exact absurd hused hfree
  | numbered _ hleast => exact ⟨_, hleast, rfl⟩

/-- One of the candidates is free: they differ, and there is one more than there are used names. -/
theorem exists_free (used : List String) (name : String) :
    ∃ i < used.length + 1, name ++ decimal ((i + 2 : Nat) : Int) ∉ used := by
  by_contra hnone
  push Not at hnone
  let candidates := (List.range (used.length + 1)).map fun i : Nat =>
    name ++ decimal ((i + 2 : Nat) : Int)
  have hdistinct : candidates.Nodup := by
    refine List.nodup_range.map fun i j hij => ?_
    have hsame := append_decimal_injective hij
    omega
  have hused : candidates ⊆ used := by
    intro candidate hcandidate
    obtain ⟨i, hi, rfl⟩ := List.mem_map.1 hcandidate
    exact hnone i (List.mem_range.1 hi)
  have hlength := (hdistinct.subperm hused).length_le
  rw [List.length_map, List.length_range] at hlength
  omega

theorem isLeast_freeSuffix (used : List String) (name : String) :
    IsLeast {n : Nat | 2 ≤ n ∧ name ++ decimal n ∉ used} (freeSuffix used name) := by
  let free (i : Nat) : Bool := !used.contains (name ++ decimal ((i + 2 : Nat) : Int))
  have hsuffix : freeSuffix used name =
      (((List.range (used.length + 1)).find? free).map (· + 2)).getD 0 :=
    congrArg (Option.getD · 0) List.find?_map
  obtain ⟨i, hi, hfree⟩ := exists_free used name
  have hsome : ((List.range (used.length + 1)).find? free).isSome :=
    List.find?_isSome.2 ⟨i, List.mem_range.2 hi, by simpa [free] using hfree⟩
  obtain ⟨first, hfirst⟩ := Option.isSome_iff_exists.1 hsome
  obtain ⟨hhere, -, hbefore⟩ := List.find?_range_eq_some.1 hfirst
  rw [hsuffix, hfirst]
  refine ⟨⟨Nat.le_add_left 2 first, by simpa [free] using hhere⟩, fun n hn => ?_⟩
  obtain ⟨htwo, hnfree⟩ := hn
  obtain ⟨j, rfl⟩ := Nat.exists_eq_add_of_le' htwo
  change first + 2 ≤ j + 2
  by_contra hlt
  exact hnfree (by simpa [free] using hbefore j (by omega))

theorem firstFree_freshName (used : List String) (name : String) :
    FirstFree used name (freshName used name) := by
  unfold freshName
  split_ifs with hused
  · exact .numbered (by simpa using hused) (isLeast_freeSuffix used name)
  · exact .kept (by simpa using hused)

/-! ## All columns -/

variable {used : List String} {columns : List Column}

theorem length_freshColumns (used : List String) (columns : List Column) :
    (freshColumns used columns).length = columns.length := by
  induction columns generalizing used with
  | nil => rfl
  | cons c columns ih => simp [freshColumns, ih]

theorem map_domain_freshColumns (used : List String) (columns : List Column) :
    (freshColumns used columns).map (·.domain) = columns.map (·.domain) := by
  induction columns generalizing used with
  | nil => rfl
  | cons c columns ih => simp [freshColumns, ih]

theorem notMem_of_mem_freshColumns {name : String}
    (h : name ∈ (freshColumns used columns).map (·.name)) : name ∉ used := by
  induction columns generalizing used with
  | nil => cases h
  | cons c columns ih =>
    rw [freshColumns, List.map_cons] at h
    rcases List.mem_cons.1 h with rfl | h
    · exact (firstFree_freshName used c.name).notMem
    · exact fun hmem => ih h (List.mem_cons_of_mem _ hmem)

theorem nodup_freshColumns (used : List String) (columns : List Column) :
    ((freshColumns used columns).map (·.name)).Nodup := by
  induction columns generalizing used with
  | nil => exact .nil
  | cons c columns ih =>
    rw [freshColumns, List.map_cons]
    exact List.nodup_cons.2 ⟨fun h => notMem_of_mem_freshColumns h List.mem_cons_self, ih _⟩

/-- Each column is named after all the names in use before it: those that are taken and those that
the columns to its left have got. -/
theorem firstFree_freshColumns {i : Nat} {name new : String}
    (hname : (columns.map (·.name))[i]? = some name)
    (hnew : ((freshColumns used columns).map (·.name))[i]? = some new) :
    FirstFree (used ++ ((freshColumns used columns).map (·.name)).take i) name new := by
  induction columns generalizing used i with
  | nil => cases hname
  | cons c columns ih =>
    rw [freshColumns, List.map_cons] at hnew ⊢
    cases i with
    | zero =>
      cases hname
      cases hnew
      rw [List.take_zero, List.append_nil]
      exact firstFree_freshName used c.name
    | succ i =>
      refine (ih hname hnew).congr fun x => ?_
      simp only [List.take_succ_cons, List.mem_append, List.mem_cons]
      tauto

/-- Distinct names that are not used are all kept. -/
theorem freshColumns_eq_self (hnodup : (columns.map (·.name)).Nodup)
    (hfree : ∀ name ∈ columns.map (·.name), name ∉ used) : freshColumns used columns = columns := by
  induction columns generalizing used with
  | nil => rfl
  | cons c columns ih =>
    obtain ⟨hfresh, hnodup⟩ := List.nodup_cons.1 hnodup
    obtain ⟨hc, hfree⟩ := List.forall_mem_cons.1 hfree
    have hkept : freshName used c.name = c.name := (firstFree_freshName used c.name).eq_self_iff.2 hc
    have hrest : ∀ name ∈ columns.map (·.name), name ∉ c.name :: used := by
      intro name hname hused
      rcases List.mem_cons.1 hused with rfl | hused
      · exact hfresh hname
      · exact hfree name hname hused
    rw [freshColumns, hkept, ih hnodup hrest]

/-! ## Schemas -/

/-- Renaming its columns makes a schema again, with the key where it was. -/
theorem wellFormed_freshColumns (schema : Schema) (taken : List String) :
    WellFormed (freshColumns taken schema.columns)
      (schema.keyPositions.filterMap fun i =>
        (freshColumns taken schema.columns)[i]?.map (·.name)) where
  names_nodup := nodup_freshColumns taken schema.columns
  key_ne_nil := by
    obtain ⟨i, hi⟩ := List.exists_mem_of_ne_nil _ schema.keyPositions_ne_nil
    have hlt : i < (freshColumns taken schema.columns).length := by
      rw [length_freshColumns]
      exact keyPositions_lt hi
    have hname : (freshColumns taken schema.columns)[i]?.map (·.name) =
        some (freshColumns taken schema.columns)[i].name := by
      rw [List.getElem?_eq_getElem hlt]
      rfl
    exact List.ne_nil_of_mem (List.mem_filterMap.2 ⟨i, hi, hname⟩)
  key_subset name hname := by
    obtain ⟨i, -, hi⟩ := List.mem_filterMap.1 hname
    rw [← List.getElem?_map] at hi
    exact List.mem_of_getElem? hi

/-- A schema whose columns have got names apart from each other and from those in `taken`: columns and
key are where they were, a name that is free when its turn comes is kept, and any other gets the least
number that makes it free. -/
structure Renamed (taken : List String) (schema result : Schema) : Prop where
  arity : result.arity = schema.arity
  domains : result.domains = schema.domains
  keyPositions : result.keyPositions = schema.keyPositions
  names_nodup : result.attributes.Nodup
  notMem_taken : ∀ name ∈ result.attributes, name ∉ taken
  kept_iff : ∀ (i : Nat) (name new : String), schema.attributes[i]? = some name →
    result.attributes[i]? = some new → (new = name ↔ name ∉ taken ++ result.attributes.take i)
  numbered : ∀ (i : Nat) (name new : String), schema.attributes[i]? = some name →
    result.attributes[i]? = some new → name ∈ taken ++ result.attributes.take i →
    ∃ n : Nat, IsLeast {n : Nat | 2 ≤ n ∧ name ++ decimal n ∉ taken ++ result.attributes.take i} n ∧
      new = name ++ decimal n

theorem renamed_disambiguate (schema : Schema) (taken : List String) :
    ∃ result, schema.disambiguate taken = .ok result ∧ Renamed taken schema result := by
  have hformed := schema.wellFormed_freshColumns taken
  have harity := length_freshColumns taken schema.columns
  refine ⟨_, hformed.define_eq, ?_⟩
  refine
    { arity := harity
      domains := map_domain_freshColumns taken schema.columns
      keyPositions := ?_
      names_nodup := hformed.names_nodup
      notMem_taken := fun _ => notMem_of_mem_freshColumns
      kept_iff := fun _ _ _ hname hnew => (firstFree_freshColumns hname hnew).eq_self_iff
      numbered := fun _ _ _ hname hnew => (firstFree_freshColumns hname hnew).exists_number }
  refine keyPositions_eq_of_key (fun i hi => ?_) ?_
  · exact lt_of_lt_of_eq (keyPositions_lt hi) harity.symm
  · simp only [attributes, List.getElem?_map]

end KeyedRelations.Schema
