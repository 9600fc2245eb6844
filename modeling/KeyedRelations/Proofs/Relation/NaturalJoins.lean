import KeyedRelations.Proofs.Relation.Joins

/-!
# Natural joins and equi joins

A natural join matches the pairs that an equi join on the shared names matches, in the same order, so its
rows are those of the equi join without some of the values: without the right values of shared names, or
without all right values. If no name is shared, every pair matches and no right column needs another name,
and the joins are the same.
-/

namespace KeyedRelations

/-! ## Values behind the left ones -/

namespace Row

/-- The first values of a row. -/
def front (n : Nat) (row : Row) : Row := .tuple (row.values.take n)

/-- A row of an equi join without the right values whose columns have names of the left schema. -/
def unshared (left right : Schema) (row : Row) : Row :=
  let kept := (right.columns.zip (row.values.drop left.arity)).filter fun x => !left.has x.1.name
  .tuple (row.values.take left.arity ++ kept.map (·.2))

variable {left right : Schema} {a b : Row}

theorem pick_positionsOutside {values : Tuple} (hlength : values.length = right.arity) :
    values.pick (right.positionsOutside left) =
      ((right.columns.zip values).filter fun x => !left.has x.1.name).map (·.2) := by
  have hzip : right.columns.zip values = right.columns.zipIdx.map fun x => (x.1, values.cell x.2) := by
    refine List.ext_getElem (by simpa [Schema.arity] using hlength.ge) fun i hi _ => ?_
    have hlt : i < values.length := (List.length_zip ▸ hi).trans_le (min_le_right _ _)
    simp [Tuple.cell_of_lt values hlt]
  unfold Tuple.pick Schema.positionsOutside
  rw [hzip, List.filter_map, List.map_map, List.map_map]
  rfl

theorem Fits.unshared_beside (ha : a.Fits left.domains) (hb : b.Fits right.domains) :
    unshared left right (a.beside b) = a.beside (b.only (right.positionsOutside left)) := by
  have hleft : a.values.length = left.arity := ha.length_values.trans Schema.length_domains
  have hright : b.values.length = right.arity := hb.length_values.trans Schema.length_domains
  simp only [unshared, values_beside]
  rw [← hleft, List.take_left, List.drop_left, ← pick_positionsOutside hright]
  rfl

theorem Fits.front_beside (ha : a.Fits left.domains) : front left.arity (a.beside b) = a := by
  obtain ⟨t, rfl, hfit⟩ := ha
  have hlength : t.length = left.arity := hfit.length_eq.symm.trans Schema.length_domains
  unfold front
  rw [values_beside, ← hlength]
  exact congrArg tuple List.take_left

end Row

/-! ## Schemas without shared names -/

namespace Schema

variable {r s : Relation} {joined : Schema}

theorem concat_of_joinSchema (h : r.joinSchema s = .ok joined)
    (hnone : r.schema.shared s.schema = []) : r.schema.concat s.schema = .ok joined := by
  obtain ⟨renamed, hrenamed, h⟩ := exists_of_bind_eq_ok h
  have hkept := freshColumns_eq_self s.schema.names_nodup (notMem_of_shared_eq_nil hnone)
  unfold concat at h ⊢
  rw [(columns_key_of_define hrenamed).1, hkept] at h
  exact h

end Schema

/-! ## Joins on shared names -/

namespace Relation

section Shared

variable {r s joined : Relation} (hr : r.Sound) (hs : s.Sound)

include hr hs

theorem Sound.equiJoin_shared {schema : Schema} (hschema : r.joinSchema s = .ok schema) :
    r.equiJoin s (r.schema.shared s.schema) (r.schema.shared s.schema) =
      .ok ⟨schema, matching (Row.agree (r.schema.sharedPositions s.schema))
        (fun x => x.1.beside x.2) r.rows s.rows⟩ := by
  obtain ⟨hi, hj⟩ := r.schema.positions_shared s.schema
  rw [hr.equiJoin_eq hs rfl hi hj hschema, List.zip_map']
  rfl

/-- Without a shared name all pairs match, and no right column needs another name. -/
theorem Sound.joins_eq_product (hnone : r.schema.shared s.schema = []) :
    ∃ joined : Relation,
      r.equiJoin s (r.schema.shared s.schema) (r.schema.shared s.schema) = .ok joined ∧
      (∀ projectRight, r.naturalJoin s projectRight = .ok joined) ∧
      joined.rows = r.rows.flatMap fun a => s.rows.map fun b => a.beside b := by
  obtain ⟨schema, hschema⟩ := r.exists_joinSchema s
  have hconcat := Schema.concat_of_joinSchema hschema hnone
  refine ⟨_, hr.equiJoin_shared hs hschema, fun _ => hr.naturalJoin_of_nil hs hnone hconcat, ?_⟩
  have hpairs : r.schema.sharedPositions s.schema = [] := by
    rw [Schema.sharedPositions, hnone, List.map_nil]
  rw [hpairs]
  exact matching_true

variable (hequi : r.equiJoin s (r.schema.shared s.schema) (r.schema.shared s.schema) = .ok joined)

include hequi

theorem Sound.naturalJoin_right : ∃ textbook : Relation, r.naturalJoin s true = .ok textbook ∧
    textbook.schema.columns =
      r.schema.columns ++ s.schema.columns.filter (fun c => !r.schema.has c.name) ∧
    textbook.schema.key = r.schema.key ∧
    textbook.rows = joined.rows.map (Row.unshared r.schema s.schema) := by
  obtain ⟨schema, hschema⟩ := r.exists_joinSchema s
  obtain rfl := Except.ok.inj ((hr.equiJoin_shared hs hschema).symm.trans hequi)
  obtain ⟨wide, hcolumns, hkey⟩ := r.schema.exists_naturalSchema s.schema true
  refine ⟨_, hr.naturalJoin_eq hs hcolumns hkey, ?_, hkey, ?_⟩
  · rw [hcolumns, ← Schema.columnsAt_positionsOutside]
    rfl
  · rw [map_matching]
    exact matching_congr fun a ha b hb => ⟨rfl, ((hr a ha).unshared_beside (hs b hb)).symm⟩

theorem Sound.naturalJoin_left (hsome : r.schema.shared s.schema ≠ []) :
    r.naturalJoin s false = .ok ⟨r.schema, joined.rows.map (Row.front r.schema.arity)⟩ := by
  obtain ⟨schema, hschema⟩ := r.exists_joinSchema s
  obtain rfl := Except.ok.inj ((hr.equiJoin_shared hs hschema).symm.trans hequi)
  rw [hr.naturalJoin_left_only hs hsome, map_matching]
  congr 2
  exact matching_congr fun a ha b _ => ⟨rfl, (hr a ha).front_beside.symm⟩

end Shared

/-- A natural join has the rows of the equi join on the shared names, in the same order: with the right
columns it lacks the right values of shared names, and without them it has the left values only. Without
a shared name both forms and the equi join are one product. -/
theorem naturalJoin_eq_equiJoin {r s : Relation} (hr : r.Sound) (hs : s.Sound) :
    ∃ joined textbook : Relation,
      r.equiJoin s (r.schema.shared s.schema) (r.schema.shared s.schema) = .ok joined ∧
      r.naturalJoin s true = .ok textbook ∧
      textbook.schema.columns =
        r.schema.columns ++ s.schema.columns.filter (fun c => !r.schema.has c.name) ∧
      textbook.schema.key = r.schema.key ∧
      textbook.rows = joined.rows.map (Row.unshared r.schema s.schema) ∧
      (r.schema.shared s.schema ≠ [] →
        r.naturalJoin s false = .ok ⟨r.schema, joined.rows.map (Row.front r.schema.arity)⟩) ∧
      (r.schema.shared s.schema = [] → textbook = joined ∧ r.naturalJoin s false = .ok joined ∧
        joined.rows = r.rows.flatMap fun a => s.rows.map fun b => a.beside b) := by
  obtain ⟨schema, hschema⟩ := r.exists_joinSchema s
  have hequi := hr.equiJoin_shared hs hschema
  obtain ⟨textbook, htextbook, hcolumns, hkey, hrows⟩ := hr.naturalJoin_right hs hequi
  refine ⟨_, textbook, hequi, htextbook, hcolumns, hkey, hrows, hr.naturalJoin_left hs hequi,
    fun hnone => ?_⟩
  obtain ⟨joined, hjoined, hnatural, hproduct⟩ := hr.joins_eq_product hs hnone
  obtain rfl := Except.ok.inj (hequi.symm.trans hjoined)
  exact ⟨Except.ok.inj (htextbook.symm.trans (hnatural true)), hnatural false, hproduct⟩

/-- Rows of both sides match more than once, and the `NaN` does not match. -/
theorem naturalJoin_eq_equiJoin_counts :
    ∃ joined textbook : Relation, counts.equiJoin weights ["x"] ["x"] = .ok joined ∧
      joined.rows.length = 5 ∧ counts.naturalJoin weights true = .ok textbook ∧
      textbook.schema.attributes = ["x", "n", "w"] ∧
      textbook.rows = joined.rows.map (Row.unshared counts.schema weights.schema) ∧
      counts.naturalJoin weights false = .ok ⟨counts.schema, joined.rows.map (Row.front 2)⟩ := by
  have hshared : counts.schema.shared weights.schema = ["x"] := by decide
  obtain ⟨joined, textbook, hjoined, htextbook, hcolumns, -, hrows, hleft, -⟩ :=
    naturalJoin_eq_equiJoin sound_counts sound_weights
  rw [hshared] at hjoined hleft
  obtain ⟨joined', hjoined', hlength⟩ : ∃ joined, counts.equiJoin weights ["x"] ["x"] = .ok joined ∧
      joined.rows.length = 5 := exists_of_length (by decide +kernel)
  obtain rfl := Except.ok.inj (hjoined.symm.trans hjoined')
  refine ⟨joined, textbook, hjoined, hlength, htextbook, ?_, hrows, hleft (by simp)⟩
  rw [Schema.attributes, hcolumns]
  decide

end Relation

end KeyedRelations
