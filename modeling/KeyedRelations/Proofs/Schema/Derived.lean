import KeyedRelations.Proofs.Schema.FreshNames

/-!
# Derived schemas

A projection has the names that were asked for, and its key is the old one or all of its names. Columns
behind those of a schema leave its key where it is, as long as they have other names. So the right
columns of a join always find a place once their names are fresh, and so do those whose names the left
schema does not have.
-/

namespace KeyedRelations.Schema

variable {schema left right result : Schema}

/-! ## Projections -/

theorem map_name_columnsAt (schema : Schema) (positions : List Nat) :
    (schema.columnsAt positions).map (·.name) =
      positions.filterMap fun i => schema.attributes[i]? := by
  simp [columnsAt, attributes, List.map_filterMap]

theorem attributes_of_project {names : List String} (h : schema.project names = .ok result) :
    result.attributes = names ∧
      result.key = if schema.key.all names.contains then schema.key else names := by
  unfold project at h
  cases hpositions : schema.positions names with
  | error fault =>
    rw [hpositions] at h
    cases h
  | ok positions =>
    rw [hpositions] at h
    obtain ⟨hcolumns, hkey⟩ := columns_key_of_define h
    refine ⟨?_, hkey⟩
    rw [attributes, hcolumns, map_name_columnsAt, names_of_positions hpositions]

/-! ## Columns behind others -/

theorem wellFormed_append {columns : List Column} (hnodup : (columns.map (·.name)).Nodup)
    (hother : ∀ name ∈ columns.map (·.name), name ∉ schema.attributes) :
    WellFormed (schema.columns ++ columns) schema.key where
  names_nodup := by
    rw [List.map_append]
    refine schema.names_nodup.append hnodup fun name hname hmem => ?_
    exact hother name hmem hname
  key_ne_nil := schema.key_ne_nil
  key_subset name hname := by
    rw [List.map_append]
    exact List.mem_append_left _ (schema.key_subset name hname)

theorem keyPositions_of_append {columns : List Column}
    (hcolumns : result.columns = schema.columns ++ columns) (hkey : result.key = schema.key) :
    result.keyPositions = schema.keyPositions := by
  have hattributes : result.attributes = schema.attributes ++ columns.map (·.name) := by
    rw [attributes, hcolumns, List.map_append]
    rfl
  unfold keyPositions
  rw [hkey, hattributes]
  exact List.map_congr_left fun name hname =>
    List.idxOf_append_of_mem (schema.key_subset name hname)

theorem exists_extend (schema other : Schema) : ∃ result, schema.extend other = .ok result := by
  refine ⟨_, (wellFormed_append ?_ fun name hname => ?_).define_eq⟩
  · exact other.names_nodup.sublist (List.filter_sublist.map _)
  · obtain ⟨c, hc, rfl⟩ := List.mem_map.1 hname
    obtain ⟨-, habsent⟩ := List.mem_filter.1 hc
    simpa [has] using habsent

theorem exists_concat (hother : ∀ name ∈ right.attributes, name ∉ left.attributes) :
    ∃ result, left.concat right = .ok result :=
  ⟨_, (wellFormed_append right.names_nodup hother).define_eq⟩

/-! ## Schemas of results -/

/-- The ways in which the schema of a result comes from those of the operands. -/
inductive Derivation (left right : Schema) : Schema → Prop
  | same : Derivation left right left
  | projected {names : List String} {result : Schema} (h : left.project names = .ok result) :
      Derivation left right result
  | joined {renamed result : Schema} (hrenamed : right.disambiguate left.attributes = .ok renamed)
      (h : left.concat renamed = .ok result) : Derivation left right result
  | product {result : Schema} (h : left.concat right = .ok result) : Derivation left right result
  | extended {result : Schema} (h : left.extend right = .ok result) : Derivation left right result

/-- The key of a result is that of the left operand, at the same positions unless columns have been
left out or moved, or all of the result's names. -/
theorem Derivation.key (h : Derivation left right result) :
    result.key = left.key ∧ result.keyPositions = left.keyPositions ∨
      (∃ names, left.project names = .ok result ∧ result.attributes = names ∧
        result.key = if left.key.all names.contains then left.key else names) := by
  cases h with
  | same => exact .inl ⟨rfl, rfl⟩
  | projected h => exact .inr ⟨_, h, attributes_of_project h⟩
  | joined _ h | product h | extended h =>
    obtain ⟨hcolumns, hkey⟩ := columns_key_of_define h
    exact .inl ⟨hkey, keyPositions_of_append hcolumns hkey⟩

end KeyedRelations.Schema
