import KeyedRelations.Proofs.Relation.Joins
import KeyedRelations.Proofs.Relation.Selections

/-!
# Selections before joins and projections

A selection by a condition looks at one column. A join keeps the left columns where they are and puts
right columns behind them, and a projection moves columns; as long as the column of the condition is
still called by its name, the condition finds it there and looks at the same values. So the selection
can be made on an operand of a join as well as on the result, and before a projection as well as after it.
-/

namespace KeyedRelations

/-! ## Where the column of a condition goes -/

namespace Schema

variable {left right joined : Schema} {positions : List Nat} {c : Comparison} {i k : Nat}

theorem Joined.accepts_left (h : Joined left right positions joined) (hi : left.Accepts c i) :
    joined.Accepts c i := by
  obtain ⟨column, hcolumn, haccepted⟩ := hi
  exact ⟨column, h.front i column hcolumn, haccepted⟩

/-- The column of a condition on the right operand, if it is emitted under its own name. -/
theorem Joined.accepts_right (h : Joined left right positions joined) (hi : right.Accepts c i)
    (hk : positions[k]? = some i) (hname : joined.attributes[left.arity + k]? = some c.left) :
    joined.Accepts c (left.arity + k) := by
  obtain ⟨column, hcolumn, -, hkind⟩ := hi
  obtain ⟨name, hfound⟩ := h.behind k i column hk hcolumn
  rw [attributes, List.getElem?_map, hfound] at hname
  exact ⟨_, hfound, Option.some.inj hname, hkind⟩

theorem Accepts.lt (h : left.Accepts c i) : i < left.arity := by
  obtain ⟨column, hcolumn, -⟩ := h
  exact (List.getElem?_eq_some_iff.1 hcolumn).1

theorem Accepts.position? (h : left.Accepts c i) : left.position? c.left = some i := by
  obtain ⟨column, hcolumn, hname, -⟩ := h
  exact hname ▸ position?_of_getElem? hcolumn

end Schema

/-! ## Selections and joins -/

namespace Join

/-- Whether the result of a join has the right column of a name, and under that name. -/
def Keeps (join : Join) (left right joined : Schema) (name : String) : Prop :=
  ∃ k i, (join.emitted left right)[k]? = some i ∧ right.position? name = some i ∧
    joined.position? name = some (left.arity + k)

/-- A natural join that emits right columns keeps all names that are not shared. -/
theorem keeps_natural {left right joined : Schema} {projectRight : Bool} {name : String}
    (hcolumns : joined.columns = left.columns ++ right.columnsAt (left.emitted right projectRight))
    (hemits : projectRight = true ∨ left.shared right = []) (hname : name ∈ right.attributes)
    (habsent : name ∉ left.attributes) :
    (natural projectRight).Keeps left right joined name := by
  obtain ⟨column, hcolumn, rfl⟩ := List.mem_map.1 hname
  obtain ⟨i, hi⟩ := List.getElem?_of_mem hcolumn
  have houtside : i ∈ right.positionsOutside left := by
    have hfresh : left.has column.name = false := by simpa [Schema.has] using habsent
    refine List.mem_map.2 ⟨(column, i), List.mem_filter.2 ⟨?_, by simp [hfresh]⟩, rfl⟩
    exact List.mk_mem_zipIdx_iff_getElem?.2 hi
  have hemitted : left.emitted right projectRight = right.positionsOutside left := by
    rcases hemits with rfl | hnone
    · rfl
    · simp [Schema.emitted, hnone]
  obtain ⟨k, hk⟩ := List.getElem?_of_mem houtside
  have hbehind : joined.columns[left.arity + k]? = some column := by
    rw [hcolumns, Schema.arity, List.getElem?_append_right (Nat.le_add_right _ k),
      Nat.add_sub_cancel_left, hemitted, Schema.getElem?_columnsAt Schema.positionsOutside_lt, hk,
      Option.bind_some, hi]
  exact ⟨k, i, (congrArg (·[k]?) hemitted).trans hk, Schema.position?_of_getElem? hi,
    Schema.position?_of_getElem? hbehind⟩

section Selections

variable {join : Join} {r s joined : Relation} {condition : String} {c : Comparison}
  (hr : r.Sound) (hs : s.Sound) (hc : Comparison.ofSelection condition = .ok c)
  (hjoined : join.result r s = .ok joined)

include hr hs hc hjoined

theorem selection_left {i : Nat} (hi : r.schema.Accepts c i) :
    Coincide (join.result ⟨r.schema, r.rows.filter (c.keeps i)⟩ s)
      (joined.selectCondition condition) := by
  obtain ⟨matched, combine, rfl, hcolumns, hrows, hresult⟩ := join.exists_pairing hr hs hjoined
  have hsound := join.sound hr hs hjoined
  have hkept : Relation.Sound ⟨r.schema, r.rows.filter (c.keeps i)⟩ :=
    fun row hrow => hr row (List.mem_of_mem_filter hrow)
  refine ⟨_, hresult _ _ hkept hs, ?_⟩
  rw [Relation.selectCondition_eq hc (hcolumns.accepts_left hi) hsound, hrows, filter_matching,
    matching_filter_left]
  congr 2
  refine matching_congr fun a ha b hb => ⟨?_, rfl⟩
  have hlt : i < a.values.length := by
    rw [(hr a ha).length_values, Schema.length_domains]
    exact hi.lt
  rw [c.keeps_congr (Row.value_beside_left hlt)]

theorem selection_right {i k : Nat} (hi : s.schema.Accepts c i)
    (hk : (join.emitted r.schema s.schema)[k]? = some i)
    (hname : joined.schema.attributes[r.schema.arity + k]? = some c.left) :
    Coincide (join.result r ⟨s.schema, s.rows.filter (c.keeps i)⟩)
      (joined.selectCondition condition) := by
  obtain ⟨matched, combine, rfl, hcolumns, hrows, hresult⟩ := join.exists_pairing hr hs hjoined
  have hsound := join.sound hr hs hjoined
  have hkept : Relation.Sound ⟨s.schema, s.rows.filter (c.keeps i)⟩ :=
    fun row hrow => hs row (List.mem_of_mem_filter hrow)
  refine ⟨_, hresult _ _ hr hkept, ?_⟩
  rw [Relation.selectCondition_eq hc (hcolumns.accepts_right hi hk hname) hsound, hrows,
    filter_matching, matching_filter_right]
  congr 2
  refine matching_congr fun a ha b hb => ⟨?_, rfl⟩
  have hleft : a.values.length = r.schema.arity := by
    rw [(hr a ha).length_values, Schema.length_domains]
  have hright : i < b.values.length := by
    rw [(hs b hb).length_values, Schema.length_domains]
    exact hi.lt
  have hlast : k < (b.only (join.emitted r.schema s.schema)).values.length := by
    simpa using (List.getElem?_eq_some_iff.1 hk).1
  have hvalue : (a.beside (b.only (join.emitted r.schema s.schema))).value (r.schema.arity + k) =
      b.value i := by
    rw [← hleft, Row.value_beside_right hlast, Row.value_only hk hright]
  rw [c.keeps_congr hvalue]

end Selections

end Join

/-! ## Selections and projections -/

namespace Relation

variable {r s : Relation}

theorem Sound.selection_projected (hr : r.Sound) {names : List String} {projected : Relation}
    (h : r.project names = .ok projected) {condition : String} {c : Comparison}
    (hc : Comparison.ofSelection condition = .ok c) {i : Nat} (hi : r.schema.Accepts c i)
    (hname : c.left ∈ names) :
    Coincide (projected.selectCondition condition)
      (Relation.project ⟨r.schema, r.rows.filter (c.keeps i)⟩ names) := by
  have hsound := hr.project h
  obtain ⟨schema, hschema, hrest⟩ := exists_of_bind_eq_ok h
  obtain ⟨positions, hpositions, -⟩ := exists_of_bind_eq_ok hrest
  obtain rfl := Except.ok.inj ((hr.project_eq hpositions hschema).symm.trans h)
  have hkept : Relation.Sound ⟨r.schema, r.rows.filter (c.keeps i)⟩ :=
    fun row hrow => hr row (List.mem_of_mem_filter hrow)
  -- In the projection the column stands where its name stands among the names.
  obtain ⟨k, hk⟩ := List.getElem?_of_mem hname
  obtain ⟨hmem, hidx⟩ := Schema.positions_eq_ok_iff.1 hpositions
  have hposition : positions[k]? = some i := by
    have hfound := (Schema.position?_of_mem (hmem _ hname)).symm.trans hi.position?
    rw [hidx, List.getElem?_map, hk, Option.map_some, hfound]
  have hprojected : schema.Accepts c k := by
    obtain ⟨positions', hpositions', hdefine⟩ := exists_of_bind_eq_ok hschema
    obtain rfl := Except.ok.inj (hpositions.symm.trans hpositions')
    obtain ⟨column, hcolumn, haccepted⟩ := hi
    refine ⟨column, ?_, haccepted⟩
    rw [(Schema.columns_key_of_define hdefine).1,
      Schema.getElem?_columnsAt (Schema.positions_lt hpositions), hposition, Option.bind_some, hcolumn]
  refine ⟨_, selectCondition_eq hc hprojected hsound, ?_⟩
  rw [hkept.project_eq hpositions hschema, List.filter_map]
  congr 3
  refine List.filter_congr fun row hrow => ?_
  have hlt : i < row.values.length := by
    rw [(hr row hrow).length_values, Schema.length_domains]
    exact hi.lt
  exact (c.keeps_congr (Row.value_only hposition hlt)).symm

/-- A selection by a condition can be made on the left operand of a join or on the result, on the right
operand or on the result if the result has the right column under its name, and before a projection that
keeps the column or after it. -/
theorem selection_pushed_down (hr : r.Sound) (hs : s.Sound) {condition : String} {c : Comparison}
    (hc : Comparison.ofSelection condition = .ok c) :
    (∀ (join : Join) (joined kept : Relation), join.result r s = .ok joined →
      r.selectCondition condition = .ok kept →
      Coincide (join.result kept s) (joined.selectCondition condition)) ∧
    (∀ (join : Join) (joined kept : Relation), join.result r s = .ok joined →
      s.selectCondition condition = .ok kept → join.Keeps r.schema s.schema joined.schema c.left →
      Coincide (join.result r kept) (joined.selectCondition condition)) ∧
    ∀ (names : List String) (projected kept : Relation), r.project names = .ok projected →
      r.selectCondition condition = .ok kept → c.left ∈ names →
      Coincide (projected.selectCondition condition) (kept.project names) := by
  refine ⟨fun join joined kept hjoined hkept => ?_, fun join joined kept hjoined hkept hkeeps => ?_,
    fun names projected kept hprojected hkept hname => ?_⟩
  · obtain ⟨i, hi⟩ := accepts_of_selectCondition hc hkept
    obtain rfl := Except.ok.inj ((selectCondition_eq hc hi hr).symm.trans hkept)
    exact Join.selection_left hr hs hc hjoined hi
  · obtain ⟨i, hi⟩ := accepts_of_selectCondition hc hkept
    obtain rfl := Except.ok.inj ((selectCondition_eq hc hi hs).symm.trans hkept)
    obtain ⟨k, i', hk, hi', hname⟩ := hkeeps
    obtain rfl := Option.some.inj (hi.position?.symm.trans hi')
    exact Join.selection_right hr hs hc hjoined hi hk (Schema.position?_eq_some_iff.1 hname)
  · obtain ⟨i, hi⟩ := accepts_of_selectCondition hc hkept
    obtain rfl := Except.ok.inj ((selectCondition_eq hc hi hr).symm.trans hkept)
    exact hr.selection_projected hprojected hc hi hname

/-- Weights alone, which share no column with counts. -/
def bareWeights : Relation where
  schema := {
    columns := [⟨"w", .integer64⟩]
    key := ["w"]
    names_nodup := by decide
    key_ne_nil := by decide
    key_subset := by decide }
  rows := [[.int 3], [.int 7]].map .tuple

theorem sound_bareWeights : bareWeights.Sound := sound_ofTuples (by decide)

/-- Joins rename the right `x` to `x2`, and the conditions still find `n` and `w`. -/
theorem selection_pushed_down_counts :
    let equi : Join := .equi ["x"] ["x"]
    let theta : Join := .theta "x <= x"
    let natural : Join := .natural true
    let product : Join := .natural false
    (∃ joined kept, equi.result counts weights = .ok joined ∧ joined.rows.length = 5 ∧
      counts.selectCondition "n >= 5" = .ok kept ∧ kept.rows.length = 2 ∧
      Coincide (equi.result kept weights) (joined.selectCondition "n >= 5")) ∧
    (∃ joined kept, theta.result counts weights = .ok joined ∧ joined.rows.length = 7 ∧
      weights.selectCondition "w < 7" = .ok kept ∧ kept.rows.length = 3 ∧
      Coincide (theta.result counts kept) (joined.selectCondition "w < 7")) ∧
    (∃ joined kept, natural.result counts weights = .ok joined ∧ joined.rows.length = 5 ∧
      weights.selectCondition "w < 7" = .ok kept ∧ kept.rows.length = 3 ∧
      Coincide (natural.result counts kept) (joined.selectCondition "w < 7")) ∧
    (∃ joined kept, product.result counts bareWeights = .ok joined ∧ joined.rows.length = 6 ∧
      bareWeights.selectCondition "w < 7" = .ok kept ∧ kept.rows.length = 1 ∧
      Coincide (product.result counts kept) (joined.selectCondition "w < 7")) ∧
    ∃ projected kept, counts.project ["n"] = .ok projected ∧
      projected.schema.columns = [⟨"n", .integer64⟩] ∧
      projected.rows = [[.int 5], [.int 7], [.int 0]].map .tuple ∧
      counts.selectCondition "n >= 5" = .ok kept ∧ kept.rows.length = 2 ∧
      Coincide (projected.selectCondition "n >= 5") (kept.project ["n"]) := by
  intro equi theta natural product
  have hn : Comparison.ofSelection "n >= 5" = .ok ⟨"n", .ge, .literal 5⟩ := rfl
  have hw : Comparison.ofSelection "w < 7" = .ok ⟨"w", .lt, .literal 7⟩ := rfl
  obtain ⟨hleft, -, hproject⟩ := selection_pushed_down sound_counts sound_weights hn
  obtain ⟨-, hright, -⟩ := selection_pushed_down sound_counts sound_weights hw
  obtain ⟨-, hrightBare, -⟩ := selection_pushed_down sound_counts sound_bareWeights hw
  obtain ⟨keptCounts, hcounts, hlengthCounts⟩ : ∃ kept,
      counts.selectCondition "n >= 5" = .ok kept ∧ kept.rows.length = 2 :=
    exists_of_length (by decide +kernel)
  obtain ⟨keptWeights, hweights, hlengthWeights⟩ : ∃ kept,
      weights.selectCondition "w < 7" = .ok kept ∧ kept.rows.length = 3 :=
    exists_of_length (by decide +kernel)
  obtain ⟨keptBare, hbare, hlengthBare⟩ : ∃ kept,
      bareWeights.selectCondition "w < 7" = .ok kept ∧ kept.rows.length = 1 :=
    exists_of_length (by decide +kernel)
  refine ⟨?_, ?_, ?_, ?_, ?_⟩
  · obtain ⟨joined, hjoined, hlength⟩ : ∃ joined, equi.result counts weights = .ok joined ∧
        joined.rows.length = 5 := exists_of_length (by decide +kernel)
    exact ⟨joined, keptCounts, hjoined, hlength, hcounts, hlengthCounts,
      hleft equi _ _ hjoined hcounts⟩
  · obtain ⟨joined, hjoined, hfacts⟩ : ∃ joined, theta.result counts weights = .ok joined ∧
        (joined.rows.length, joined.schema.position? "w") = (7, some 3) :=
      exists_of_toOption (fun r : Relation => (r.rows.length, r.schema.position? "w"))
        (by decide +kernel)
    obtain ⟨hlength, hposition⟩ := Prod.mk.inj hfacts
    exact ⟨joined, keptWeights, hjoined, hlength, hweights, hlengthWeights,
      hright theta _ _ hjoined hweights ⟨1, 1, by decide, by decide, hposition⟩⟩
  · obtain ⟨schema, hcolumns, hkey⟩ := counts.schema.exists_naturalSchema weights.schema true
    have hjoined := sound_counts.naturalJoin_eq sound_weights hcolumns hkey
    have hkeeps := Join.keeps_natural hcolumns (.inl rfl) (by decide : "w" ∈ _) (by decide)
    exact ⟨_, keptWeights, hjoined, by dsimp only; decide +kernel, hweights, hlengthWeights,
      hright natural _ _ hjoined hweights hkeeps⟩
  · obtain ⟨schema, hcolumns, hkey⟩ := counts.schema.exists_naturalSchema bareWeights.schema false
    have hjoined := sound_counts.naturalJoin_eq sound_bareWeights hcolumns hkey
    have hkeeps := Join.keeps_natural hcolumns (.inr (by decide)) (by decide : "w" ∈ _) (by decide)
    exact ⟨_, keptBare, hjoined, by dsimp only; decide +kernel, hbare, hlengthBare,
      hrightBare product _ _ hjoined hbare hkeeps⟩
  · obtain ⟨projected, hprojected, hcolumns, hrows⟩ : ∃ projected,
        counts.project ["n"] = .ok projected ∧ projected.schema.columns = [⟨"n", .integer64⟩] ∧
        projected.rows = [[.int 5], [.int 7], [.int 0]].map .tuple := ⟨_, rfl, rfl, rfl⟩
    exact ⟨projected, keptCounts, hprojected, hcolumns, hrows, hcounts, hlengthCounts,
      hproject ["n"] _ _ hprojected hcounts (by decide)⟩

end Relation

end KeyedRelations
