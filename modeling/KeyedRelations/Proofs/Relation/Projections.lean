import KeyedRelations.Proofs.Relation.Joins

/-!
# Projections of projections

A projection has the columns of its names in their order, wherever the names stand in the operand. So a
projection of a projection is the projection onto the second names: it has the same columns and the same
rows. It has the same key as well, unless the first projection made all of its names the key and the second
one only puts them in another order.
-/

namespace KeyedRelations

/-- Positions in a list of positions, and the positions that are found there. -/
def Through (inner outer found : List Nat) : Prop :=
  List.Forall₂ (fun m n => inner[m]? = some n) outer found

theorem Tuple.pick_pick {i j k : List Nat} (h : Through i j k) (t : Tuple) :
    Tuple.pick (t.pick i) j = t.pick k := by
  unfold Tuple.pick
  induction h with
  | nil => rfl
  | @cons m n _ _ hfound _ ih =>
    have hcell : Tuple.cell (i.map t.cell) m = t.cell n := by simp [cell, hfound]
    rw [List.map_cons, List.map_cons, hcell, ih]

namespace Schema

variable {schema projected result : Schema} {names others : List String} {i j k : List Nat}

/-! ## When there is a projection -/

/-- Names make a projection if they are distinct names of columns, at least one. -/
theorem exists_project_iff :
    (∃ result, schema.project names = .ok result) ↔
      names ≠ [] ∧ names.Nodup ∧ ∀ name ∈ names, name ∈ schema.attributes := by
  constructor
  · rintro ⟨result, h⟩
    obtain ⟨positions, hpositions, -⟩ := exists_of_bind_eq_ok h
    obtain ⟨hnames, -⟩ := attributes_of_project h
    refine ⟨?_, hnames ▸ result.names_nodup, (positions_eq_ok_iff.1 hpositions).1⟩
    rintro rfl
    obtain ⟨name, hname⟩ := List.exists_mem_of_ne_nil _ result.key_ne_nil
    have habsent : name ∈ result.attributes := result.key_subset name hname
    rw [hnames] at habsent
    cases habsent
  · rintro ⟨hne, hnodup, hmem⟩
    have hpositions := positions_eq_ok_iff.2 ⟨hmem, rfl⟩
    have hcolumns := (schema.map_name_columnsAt _).trans (names_of_positions hpositions)
    unfold project
    rw [hpositions]
    refine ⟨_, WellFormed.define_eq ⟨hcolumns.symm ▸ hnodup, ?_, ?_⟩⟩
    · split_ifs
      · exact schema.key_ne_nil
      · exact hne
    · rw [hcolumns]
      split_ifs with hkey
      · simpa using hkey
      · exact fun _ hname => hname

theorem columns_of_project (hi : schema.positions names = .ok i) (h : schema.project names = .ok result) :
    result.columns = schema.columnsAt i := by
  unfold project at h
  rw [hi] at h
  exact (columns_key_of_define h).1

/-! ## Two projections -/

/-- Through the first projection, names are found at their positions in the operand. -/
theorem through_positions (hi : schema.positions names = .ok i) (hattributes : projected.attributes = names)
    (hj : projected.positions others = .ok j) (hk : schema.positions others = .ok k) : Through i j k := by
  obtain ⟨-, rfl⟩ := positions_eq_ok_iff.1 hi
  obtain ⟨hmem, rfl⟩ := positions_eq_ok_iff.1 hj
  obtain ⟨-, rfl⟩ := positions_eq_ok_iff.1 hk
  unfold Through
  rw [List.forall₂_map_left_iff, List.forall₂_map_right_iff, List.forall₂_same]
  intro name hname
  have hother : name ∈ names := hattributes ▸ hmem name hname
  rw [hattributes, List.getElem?_map, List.getElem?_idxOf hother]
  rfl

theorem columnsAt_through (hi : ∀ n ∈ i, n < schema.arity) (h : Through i j k)
    (hcolumns : projected.columns = schema.columnsAt i) : projected.columnsAt j = schema.columnsAt k := by
  unfold columnsAt
  induction h with
  | nil => rfl
  | @cons m n _ _ hfound _ ih =>
    have hcolumn : projected.columns[m]? = schema.columns[n]? := by
      rw [hcolumns, getElem?_columnsAt hi, hfound]
      rfl
    rw [List.filterMap_cons, List.filterMap_cons, hcolumn, ih]

theorem all_contains_iff : schema.key.all names.contains = true ↔ schema.key ⊆ names := by
  rw [List.all_eq_true]
  exact forall₂_congr fun _ _ => List.contains_iff_mem

/-- The key of a projection of a projection, beside that of the projection onto the second names. -/
theorem key_of_project_project {direct : Schema} (hprojected : schema.project names = .ok projected)
    (hresult : projected.project others = .ok result) (hdirect : schema.project others = .ok direct) :
    (schema.key ⊆ names ∨ ¬others.Perm names → direct.key = result.key) ∧
      (¬schema.key ⊆ names → others.Perm names → result.key = names ∧ direct.key = others) := by
  obtain ⟨-, hnodup, -⟩ := exists_project_iff.1 ⟨_, hprojected⟩
  obtain ⟨-, hnodup', hmem⟩ := exists_project_iff.1 ⟨_, hresult⟩
  obtain ⟨hnames, hkey⟩ := attributes_of_project hprojected
  obtain ⟨-, hkeyResult⟩ := attributes_of_project hresult
  obtain ⟨-, hkeyDirect⟩ := attributes_of_project hdirect
  have hsubset : others ⊆ names := hnames ▸ hmem
  simp only [all_contains_iff] at hkey hkeyResult hkeyDirect
  by_cases hkept : schema.key ⊆ names
  · rw [if_pos hkept] at hkey
    rw [hkey] at hkeyResult
    exact ⟨fun _ => hkeyDirect.trans hkeyResult.symm, fun hlost => absurd hkept hlost⟩
  · -- The names are the key now, which stays if all of them are asked for again.
    rw [if_neg hkept] at hkey
    rw [if_neg fun h => hkept (List.Subset.trans h hsubset)] at hkeyDirect
    rw [hkey] at hkeyResult
    refine ⟨fun h => ?_, fun _ hperm => ⟨?_, hkeyDirect⟩⟩
    · have hother : ¬names ⊆ others := fun hall => h.resolve_left hkept
        ((List.perm_ext_iff_of_nodup hnodup' hnodup).2 fun _ => ⟨@hsubset _, @hall _⟩)
      rw [hkeyDirect, hkeyResult, if_neg hother]
    · rw [hkeyResult, if_pos hperm.symm.subset]

end Schema

namespace Relation

/-- The projection of a projection is the projection onto the second names, with the same columns and
rows. It has the same key, except that names which the first projection made the key, because they lack the
key of the operand, stay the key in their order if the second one only puts them in another order. -/
theorem project_project {r projected result : Relation} (hr : r.Sound) {names others : List String}
    (hprojected : r.project names = .ok projected) (hresult : projected.project others = .ok result) :
    ∃ direct, r.project others = .ok direct ∧ direct.schema.columns = result.schema.columns ∧
      direct.rows = result.rows ∧
      (r.schema.key ⊆ names ∨ ¬others.Perm names → direct.schema.key = result.schema.key) ∧
      (¬r.schema.key ⊆ names → others.Perm names →
        result.schema.key = names ∧ direct.schema.key = others) := by
  have hsound := hr.project hprojected
  obtain ⟨middle, hmiddle, hrest⟩ := exists_of_bind_eq_ok hprojected
  obtain ⟨i, hi, -⟩ := exists_of_bind_eq_ok hrest
  obtain rfl := Except.ok.inj ((hr.project_eq hi hmiddle).symm.trans hprojected)
  obtain ⟨last, hlast, hrest⟩ := exists_of_bind_eq_ok hresult
  obtain ⟨j, hj, -⟩ := exists_of_bind_eq_ok hrest
  obtain rfl := Except.ok.inj ((hsound.project_eq hj hlast).symm.trans hresult)
  -- The second names are distinct names of the operand, so the projection onto them exists.
  obtain ⟨hattributes, -⟩ := Schema.attributes_of_project hmiddle
  obtain ⟨-, -, hmem⟩ := Schema.exists_project_iff.1 ⟨_, hmiddle⟩
  obtain ⟨hne, hnodup, hmem'⟩ := Schema.exists_project_iff.1 ⟨_, hlast⟩
  have hothers : ∀ name ∈ others, name ∈ r.schema.attributes := fun name hname =>
    hmem name (hattributes ▸ hmem' name hname)
  obtain ⟨direct, hdirect⟩ := Schema.exists_project_iff.2 ⟨hne, hnodup, hothers⟩
  obtain ⟨k, hk, -⟩ := exists_of_bind_eq_ok hdirect
  have hthrough := Schema.through_positions hi hattributes hj hk
  refine ⟨_, hr.project_eq hk hdirect, ?_, ?_, Schema.key_of_project_project hmiddle hlast hdirect⟩
  · calc direct.columns
        = r.schema.columnsAt k := Schema.columns_of_project hk hdirect
      _ = middle.columnsAt j := (Schema.columnsAt_through (Schema.positions_lt hi) hthrough
          (Schema.columns_of_project hi hmiddle)).symm
      _ = last.columns := (Schema.columns_of_project hj hlast).symm
  · dsimp only
    rw [List.map_map]
    refine List.map_congr_left fun row _ => ?_
    exact congrArg Row.tuple (Tuple.pick_pick hthrough row.values).symm

/-- Items on shelves, found by their names. -/
def stock : Relation where
  schema := {
    columns := [⟨"shelf", .integer8⟩, ⟨"item", .string⟩, ⟨"count", .integer32⟩]
    key := ["item"]
    names_nodup := by simp
    key_ne_nil := by simp
    key_subset := by simp }
  rows := [[.int 1, .text "nail", .int 40], [.int 1, .text "screw", .int 40],
    [.int 2, .text "bolt", .int 7]].map .tuple

/-- Without the item, the shelf and the count are the key in the order in which they were asked for. -/
theorem project_project_reordered :
    ∃ projected result direct : Relation, stock.project ["shelf", "count"] = .ok projected ∧
      projected.project ["count", "shelf"] = .ok result ∧ result.rows.length = 3 ∧
      stock.project ["count", "shelf"] = .ok direct ∧ direct.rows = result.rows ∧
      result.schema.key = ["shelf", "count"] ∧ direct.schema.key = ["count", "shelf"] := by
  have hsound : stock.Sound := sound_ofTuples (by decide)
  obtain ⟨projected, hprojected, -⟩ : ∃ projected, stock.project ["shelf", "count"] = .ok projected ∧
      projected.rows.length = 3 := exists_of_length (by decide +kernel)
  obtain ⟨result, hresult, hlength⟩ : ∃ result, (do
      (← stock.project ["shelf", "count"]).project ["count", "shelf"]) = .ok result ∧
      result.rows.length = 3 := exists_of_length (by decide +kernel)
  rw [hprojected] at hresult
  obtain ⟨direct, hdirect, -, hrows, -, hkeys⟩ := project_project hsound hprojected hresult
  obtain ⟨hkey, hkeyDirect⟩ := hkeys (by decide) (by decide)
  exact ⟨projected, result, direct, hprojected, hresult, hlength, hdirect, hrows, hkey, hkeyDirect⟩

end Relation

end KeyedRelations
