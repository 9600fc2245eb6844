import KeyedRelations.Proofs.Condition.Answers
import KeyedRelations.Proofs.Relation.Checks
import KeyedRelations.Proofs.Relation.Pairings
import KeyedRelations.Proofs.Relation.Schemas

/-!
# Joins

Whether a join is refused is decided by the schemas. If it is not, the schemas also decide which pairs of
rows match, which columns of the right relation are put behind the left ones and how they are called. So
every join is refused by a check for all rows, or it is one pairing for all rows that fit.
-/

namespace KeyedRelations

/-! ## Schemas put together -/

namespace Schema

variable (left right : Schema)

/-- The names that both schemas have, in the order of the left one. -/
def shared : List String := left.attributes.filter right.has

/-- The positions of each shared name in both schemas. -/
def sharedPositions : List (Nat × Nat) :=
  (left.shared right).map fun name => (left.attributes.idxOf name, right.attributes.idxOf name)

/-- The positions of the right columns that a natural join puts behind the left ones. -/
def emitted (projectRight : Bool) : List Nat :=
  if projectRight || (left.shared right).isEmpty then right.positionsOutside left else []

variable {left right}

theorem getElem?_columnsAt {schema : Schema} {positions : List Nat}
    (hpositions : ∀ i ∈ positions, i < schema.arity) (k : Nat) :
    (schema.columnsAt positions)[k]? = positions[k]?.bind fun i => schema.columns[i]? := by
  unfold columnsAt
  induction positions generalizing k with
  | nil => rfl
  | cons i positions ih =>
    obtain ⟨hi, hrest⟩ := List.forall_mem_cons.1 hpositions
    rw [List.filterMap_cons_some (List.getElem?_eq_getElem hi)]
    cases k with
    | zero => simp [List.getElem?_eq_getElem hi]
    | succ k => simpa using ih hrest k

theorem columnsAt_range (schema : Schema) :
    schema.columnsAt (List.range schema.arity) = schema.columns := by
  refine List.ext_getElem? fun k => ?_
  rw [getElem?_columnsAt fun i hi => List.mem_range.1 hi]
  by_cases hk : k < schema.arity
  · rw [List.getElem?_range hk, Option.bind_some]
  · have hlast := not_lt.1 hk
    rw [List.getElem?_eq_none (by simpa using hlast), List.getElem?_eq_none hlast]
    rfl

theorem mem_shared {name : String} :
    name ∈ left.shared right ↔ name ∈ left.attributes ∧ name ∈ right.attributes := by
  simp [shared, has]

theorem positions_shared (left right : Schema) :
    left.positions (left.shared right) =
        .ok ((left.shared right).map fun name => left.attributes.idxOf name) ∧
      right.positions (left.shared right) =
        .ok ((left.shared right).map fun name => right.attributes.idxOf name) :=
  ⟨positions_eq_ok_iff.2 ⟨fun _ hname => (mem_shared.1 hname).1, rfl⟩,
    positions_eq_ok_iff.2 ⟨fun _ hname => (mem_shared.1 hname).2, rfl⟩⟩

theorem notMem_of_shared_eq_nil (h : left.shared right = []) :
    ∀ name ∈ right.attributes, name ∉ left.attributes := by
  intro name hright hleft
  have hmem : name ∈ left.shared right := mem_shared.2 ⟨hleft, hright⟩
  simp [h] at hmem

theorem positionsOutside_eq_range (h : left.shared right = []) :
    right.positionsOutside left = List.range right.arity := by
  have hall : right.columns.zipIdx.filter (fun x => !left.has x.1.name) = right.columns.zipIdx := by
    refine List.filter_eq_self.2 fun x hx => ?_
    have hname : x.1.name ∈ right.attributes :=
      List.mem_map_of_mem (List.fst_mem_of_mem_zipIdx hx)
    simpa [has] using notMem_of_shared_eq_nil h _ hname
  unfold positionsOutside
  rw [hall, List.zipIdx_map_snd, arity, List.range_eq_range']

theorem eq_of_columns_key {schema other : Schema} (hcolumns : schema.columns = other.columns)
    (hkey : schema.key = other.key) : schema = other := by
  have hschema := define_eq_ok_iff.2 ⟨hcolumns, hkey⟩
  exact Except.ok.inj (hschema.symm.trans (define_eq_ok_iff.2 ⟨rfl, rfl⟩))

/-- The right columns that a natural join emits find a place behind the left ones. -/
theorem exists_naturalSchema (left right : Schema) (projectRight : Bool) :
    ∃ joined : Schema, joined.columns = left.columns ++
        right.columnsAt (left.emitted right projectRight) ∧ joined.key = left.key := by
  unfold emitted
  split_ifs
  · obtain ⟨joined, hjoined⟩ := left.exists_extend right
    rw [columnsAt_positionsOutside]
    exact ⟨joined, columns_key_of_define hjoined⟩
  · exact ⟨left, (List.append_nil _).symm, rfl⟩

end Schema

/-! ## Joins of rows that fit -/

namespace Relation

/-- Of rows that fit, a join that emits all right values puts whole rows together. -/
theorem matching_beside {r s : Relation} (hs : s.Sound) (matched : Row × Row → Bool) :
    matching matched (fun x => x.1.beside x.2) r.rows s.rows =
      matching matched (fun x => x.1.beside (x.2.only (List.range s.schema.arity))) r.rows s.rows := by
  refine matching_congr fun a _ b hb => ⟨rfl, ?_⟩
  rw [← Schema.length_domains, (hs b hb).only_range]

variable {r s : Relation} (hr : r.Sound) (hs : s.Sound)

include hr hs

theorem Sound.joinEqual_eq {i j : List Nat} (hi : ∀ n ∈ i, n < r.schema.arity)
    (hj : ∀ n ∈ j, n < s.schema.arity) (hlength : i.length = j.length)
    {f : Row → Row → Except Fault Row} (combine : Row × Row → Row)
    (hf : ∀ a ∈ r.rows, ∀ b ∈ s.rows, f a b = .ok (combine (a, b))) :
    r.joinEqual s i j f = .ok (matching (Row.agree (i.zip j)) combine r.rows s.rows) := by
  refine joinRows_eq fun a ha => ?_
  rw [(hr a ha).pick_eq hi]
  refine ⟨_, rfl, fun b hb => ?_⟩
  simp only [(hs b hb).holds_eq hj hlength, hf a ha b hb, bind, Except.bind]
  cases Row.agree (i.zip j) (a, b) <;> rfl

/-- An equi join whose names are found and paired. -/
theorem Sound.equiJoin_eq {left right : List String} {i j : List Nat} {joined : Schema}
    (hlength : left.length = right.length) (hi : r.schema.positions left = .ok i)
    (hj : s.schema.positions right = .ok j) (hjoined : r.joinSchema s = .ok joined) :
    r.equiJoin s left right =
      .ok ⟨joined, matching (Row.agree (i.zip j)) (fun x => x.1.beside x.2) r.rows s.rows⟩ := by
  have hpositions : i.length = j.length := by
    rw [(Schema.positions_eq_ok_iff.1 hi).2, (Schema.positions_eq_ok_iff.1 hj).2, List.length_map,
      List.length_map, hlength]
  have hrows := hr.joinEqual_eq hs (Schema.positions_lt hi) (Schema.positions_lt hj) hpositions
    (fun x => x.1.beside x.2) fun a ha b hb => (hr a ha).append_eq (hs b hb)
  unfold Relation.equiJoin
  rw [if_neg (not_not.2 hlength), hi, hj, hjoined]
  simp only [bind, Except.bind, hrows]
  rfl

/-- A theta join whose names are found in columns that can be compared. -/
theorem Sound.thetaJoin_eq {condition : String} {c : Comparison} {i j : Nat} {left right : Column}
    {joined : Schema} (hc : Comparison.ofJoin condition = .ok c)
    (hi : r.schema.resolve c.left = .ok (i, left))
    (hj : s.schema.resolve c.right.text = .ok (j, right))
    (hkind : left.domain.comparableWith right.domain = true)
    (hjoined : r.joinSchema s = .ok joined) :
    r.thetaJoin s condition =
      .ok ⟨joined, matching
        (fun x => c.operator.decides (x.1.values.cell i) (x.2.values.cell j))
        (fun x => x.1.beside x.2) r.rows s.rows⟩ := by
  have hsame : right.domain.kind = left.domain.kind := (eq_of_beq hkind).symm
  have hrows : joinRows (fun a => do
        let v ← a.value i
        return fun b => do
          if ← c.test v (← b.value j) then return some (← a.append b) else return none)
      s.rows r.rows = .ok (matching
        (fun x => c.operator.decides (x.1.values.cell i) (x.2.values.cell j))
        (fun x => x.1.beside x.2) r.rows s.rows) := by
    refine joinRows_eq fun a ha => ?_
    obtain ⟨hv, hholding⟩ := (hr a ha).value_eq (Schema.domain_of_resolve hi)
    rw [hv]
    refine ⟨_, rfl, fun b hb => ?_⟩
    obtain ⟨hw, hholding'⟩ := (hs b hb).value_eq (Schema.domain_of_resolve hj)
    have hanswer := c.test_eq_decides
      (Value.exists_compare c.operator hholding (hholding'.of_kind hsame))
    simp only [hw, hanswer, (hr a ha).append_eq (hs b hb), bind, Except.bind]
    cases c.operator.decides (a.values.cell i) (b.values.cell j) <;> rfl
  unfold Relation.thetaJoin
  simp only [hc, hi, hj, hkind, hjoined, bind, Except.bind] at hrows ⊢
  simp only [hrows]
  rfl

theorem Sound.joinEqual_shared {f : Row → Row → Except Fault Row} (combine : Row × Row → Row)
    (hf : ∀ a ∈ r.rows, ∀ b ∈ s.rows, f a b = .ok (combine (a, b))) :
    r.joinEqual s ((r.schema.shared s.schema).map fun name => r.schema.attributes.idxOf name)
        ((r.schema.shared s.schema).map fun name => s.schema.attributes.idxOf name) f =
      .ok (matching (Row.agree (r.schema.sharedPositions s.schema)) combine r.rows s.rows) := by
  obtain ⟨hi, hj⟩ := r.schema.positions_shared s.schema
  rw [hr.joinEqual_eq hs (Schema.positions_lt hi) (Schema.positions_lt hj) (by simp) combine hf,
    List.zip_map']
  rfl

/-- Without a shared name a natural join puts whole rows together. -/
theorem Sound.naturalJoin_of_nil {projectRight : Bool} {joined : Schema}
    (hnone : r.schema.shared s.schema = []) (hjoined : r.schema.concat s.schema = .ok joined) :
    r.naturalJoin s projectRight = .ok ⟨joined, matching
      (Row.agree (r.schema.sharedPositions s.schema)) (fun x => x.1.beside x.2) r.rows s.rows⟩ := by
  have hrows := hr.joinEqual_shared hs (f := Row.append) (fun x => x.1.beside x.2)
    fun a ha b hb => (hr a ha).append_eq (hs b hb)
  simp only [hnone, List.map_nil] at hrows
  unfold Relation.naturalJoin
  unfold Schema.shared at hnone
  simp only [hjoined, hrows, if_pos hnone, bind, Except.bind]
  rfl

section Named

variable (hsome : r.schema.shared s.schema ≠ [])

include hsome

theorem Sound.naturalJoin_extended {joined : Schema} (hjoined : r.schema.extend s.schema = .ok joined) :
    r.naturalJoin s true = .ok ⟨joined, matching (Row.agree (r.schema.sharedPositions s.schema))
      (fun x => x.1.beside (x.2.only (s.schema.positionsOutside r.schema))) r.rows s.rows⟩ := by
  obtain ⟨hi, hj⟩ := r.schema.positions_shared s.schema
  have hrows := hr.joinEqual_shared hs
    (f := fun a b => do a.append (.tuple (← b.pick (s.schema.positionsOutside r.schema))))
    (fun x => x.1.beside (x.2.only (s.schema.positionsOutside r.schema))) fun a ha b hb => by
      obtain ⟨t, rfl, -⟩ := hr a ha
      rw [(hs b hb).pick_eq Schema.positionsOutside_lt]
      rfl
  unfold Relation.naturalJoin
  unfold Schema.shared at hi hj hsome hrows
  simp only [bind, Except.bind] at hrows
  simp only [hi, hj, hjoined, hrows, if_neg hsome, if_pos, bind, Except.bind]
  rfl

theorem Sound.naturalJoin_left_only : r.naturalJoin s false = .ok ⟨r.schema, matching
    (Row.agree (r.schema.sharedPositions s.schema)) Prod.fst r.rows s.rows⟩ := by
  obtain ⟨hi, hj⟩ := r.schema.positions_shared s.schema
  have hrows := hr.joinEqual_shared hs (f := fun a _ => .ok a) Prod.fst fun _ _ _ _ => rfl
  unfold Relation.naturalJoin
  unfold Schema.shared at hi hj hsome hrows
  simp only [hi, hj, hrows, if_neg hsome, Bool.false_eq_true, if_false, bind, Except.bind]
  rfl

end Named

theorem Sound.naturalJoin_eq {projectRight : Bool} {joined : Schema}
    (hcolumns : joined.columns = r.schema.columns ++
      s.schema.columnsAt (r.schema.emitted s.schema projectRight))
    (hkey : joined.key = r.schema.key) :
    r.naturalJoin s projectRight = .ok ⟨joined, matching
      (Row.agree (r.schema.sharedPositions s.schema))
      (fun x => x.1.beside (x.2.only (r.schema.emitted s.schema projectRight))) r.rows s.rows⟩ := by
  by_cases hnone : r.schema.shared s.schema = []
  · have hemitted : r.schema.emitted s.schema projectRight = List.range s.schema.arity := by
      simp [Schema.emitted, hnone, Schema.positionsOutside_eq_range]
    rw [hemitted] at hcolumns ⊢
    rw [Schema.columnsAt_range] at hcolumns
    rw [hr.naturalJoin_of_nil hs hnone (Schema.define_eq_ok_iff.2 ⟨hcolumns, hkey⟩),
      matching_beside hs]
  · cases projectRight with
    | true =>
      have hemitted : r.schema.emitted s.schema true = s.schema.positionsOutside r.schema := rfl
      rw [hemitted] at hcolumns ⊢
      rw [Schema.columnsAt_positionsOutside] at hcolumns
      exact hr.naturalJoin_extended hs hnone (Schema.define_eq_ok_iff.2 ⟨hcolumns, hkey⟩)
    | false =>
      have hemitted : r.schema.emitted s.schema false = [] := by simp [Schema.emitted, hnone]
      rw [hemitted] at hcolumns ⊢
      obtain rfl := Schema.eq_of_columns_key (hcolumns.trans (List.append_nil _)) hkey
      rw [hr.naturalJoin_left_only hs hnone]
      congr 2
      exact matching_congr fun a ha b _ => ⟨rfl, ((hr a ha).beside_only_nil b).symm⟩

end Relation

/-! ## All joins -/

/-- A join with its arguments. -/
inductive Join where
  | equi (left right : List String)
  | theta (condition : String)
  | natural (projectRight : Bool)

/-- The left columns in front, and behind them right columns, which may have got other names. -/
structure Schema.Joined (left right : Schema) (positions : List Nat) (joined : Schema) : Prop where
  front : ∀ (i : Nat) (column : Column), left.columns[i]? = some column → joined.columns[i]? = some column
  behind : ∀ (k i : Nat) (column : Column), positions[k]? = some i → right.columns[i]? = some column →
    ∃ name, joined.columns[left.arity + k]? = some { column with name }

namespace Schema

variable {left right joined : Schema}

theorem joined_of_append {columns : List Column} {positions : List Nat}
    (hcolumns : joined.columns = left.columns ++ columns)
    (hbehind : ∀ (k i : Nat) (column : Column), positions[k]? = some i → right.columns[i]? = some column →
      ∃ name, columns[k]? = some { column with name }) :
    Joined left right positions joined where
  front i column hcolumn := by
    rw [hcolumns, List.getElem?_append_left (List.getElem?_eq_some_iff.1 hcolumn).1, hcolumn]
  behind k i column hk hcolumn := by
    obtain ⟨name, hname⟩ := hbehind k i column hk hcolumn
    refine ⟨name, ?_⟩
    rw [hcolumns, arity, List.getElem?_append_right (Nat.le_add_right _ k),
      Nat.add_sub_cancel_left, hname]

theorem joined_of_columnsAt {positions : List Nat} (hlt : ∀ i ∈ positions, i < right.arity)
    (hcolumns : joined.columns = left.columns ++ right.columnsAt positions) :
    Joined left right positions joined := by
  refine joined_of_append hcolumns fun k i column hk hcolumn => ⟨column.name, ?_⟩
  rw [getElem?_columnsAt hlt, hk, Option.bind_some, hcolumn]

theorem joined_joinSchema {r s : Relation} (h : r.joinSchema s = .ok joined) :
    Joined r.schema s.schema (List.range s.schema.arity) joined := by
  obtain ⟨renamed, hrenamed, h⟩ := exists_of_bind_eq_ok h
  obtain ⟨hcolumns, -⟩ := columns_key_of_define h
  refine joined_of_append hcolumns fun k i column hk hcolumn => ?_
  obtain ⟨hlt, rfl⟩ := List.getElem?_eq_some_iff.1 hk
  rw [List.getElem_range] at hcolumn
  have hdomain : renamed.domains[k]? = some column.domain := by
    rw [domains_of_disambiguate hrenamed, domains, List.getElem?_map, hcolumn]
    rfl
  rw [domains, List.getElem?_map] at hdomain
  obtain ⟨other, hother, hsame⟩ := Option.map_eq_some_iff.1 hdomain
  exact ⟨other.name, hsame ▸ hother⟩

theorem emitted_lt {projectRight : Bool} :
    ∀ i ∈ left.emitted right projectRight, i < right.arity := by
  unfold emitted
  split_ifs
  · exact positionsOutside_lt
  · simp

end Schema

namespace Join

def result (r s : Relation) : Join → Except Fault Relation
  | .equi left right => r.equiJoin s left right
  | .theta condition => r.thetaJoin s condition
  | .natural projectRight => r.naturalJoin s projectRight

/-- The positions of the right columns that the result has behind the left ones. -/
def emitted (left right : Schema) : Join → List Nat
  | .equi _ _ | .theta _ => List.range right.arity
  | .natural projectRight => left.emitted right projectRight

theorem sound (join : Join) {r s joined : Relation} (hr : r.Sound) (hs : s.Sound)
    (h : join.result r s = .ok joined) : joined.Sound := by
  cases join with
  | equi left right => exact hr.equiJoin hs h
  | theta condition => exact hr.thetaJoin hs h
  | natural projectRight => exact hr.naturalJoin hs h

variable (left right : Schema)

/-- The checks of an equi join: a refusal for all rows, or lists of one length whose names are found. -/
theorem equi_checks (names others : List String) :
    (∃ fault : Fault, fault.OfCheck ∧ ∀ rows rows',
      Relation.equiJoin ⟨left, rows⟩ ⟨right, rows'⟩ names others = .error fault) ∨
    ∃ i j, names.length = others.length ∧ left.positions names = .ok i ∧
      right.positions others = .ok j := by
  unfold Relation.equiJoin
  by_cases hlength : names.length = others.length
  · simp only [if_neg (not_not.2 hlength)]
    cases hi : left.positions names with
    | error fault => exact .inl ⟨fault, left.checked_positions names fault hi, fun _ _ => rfl⟩
    | ok i =>
      cases hj : right.positions others with
      | error fault => exact .inl ⟨fault, right.checked_positions others fault hj, fun _ _ => rfl⟩
      | ok j => exact .inr ⟨i, j, hlength, rfl, rfl⟩
  · exact .inl ⟨_, .condition _ _, fun _ _ => if_pos hlength⟩

/-- The checks of a theta join: a refusal for all rows, or a comparison of columns of one kind. -/
theorem theta_checks (condition : String) :
    (∃ fault : Fault, fault.OfCheck ∧ ∀ rows rows',
      Relation.thetaJoin ⟨left, rows⟩ ⟨right, rows'⟩ condition = .error fault) ∨
    ∃ c i j column other, Comparison.ofJoin condition = .ok c ∧
      left.resolve c.left = .ok (i, column) ∧ right.resolve c.right.text = .ok (j, other) ∧
      column.domain.comparableWith other.domain = true := by
  unfold Relation.thetaJoin
  cases hc : Comparison.ofJoin condition with
  | error fault => exact .inl ⟨fault, Comparison.checked_ofJoin condition fault hc, fun _ _ => rfl⟩
  | ok c =>
    simp only [bind, Except.bind]
    cases hi : left.resolve c.left with
    | error fault => exact .inl ⟨fault, left.checked_resolve _ fault hi, fun _ _ => rfl⟩
    | ok found =>
      cases hj : right.resolve c.right.text with
      | error fault => exact .inl ⟨fault, right.checked_resolve _ fault hj, fun _ _ => rfl⟩
      | ok found' =>
        obtain ⟨i, column⟩ := found
        obtain ⟨j, other⟩ := found'
        cases hkind : column.domain.comparableWith other.domain with
        | false => exact .inl ⟨_, .condition _ _, fun _ _ => by simp [hkind]; rfl⟩
        | true => exact .inr ⟨c, i, j, column, other, rfl, hi, hj, hkind⟩

/-- A join of relations of two schemas is refused by a check, whatever the rows are, or for all rows that
fit it puts together those pairs of which a test holds. -/
theorem result_cases (join : Join) :
    (∃ fault : Fault, fault.OfCheck ∧
      ∀ rows rows', join.result ⟨left, rows⟩ ⟨right, rows'⟩ = .error fault) ∨
    ∃ joined matched, Schema.Joined left right (join.emitted left right) joined ∧
      ∀ rows rows', Relation.Sound ⟨left, rows⟩ → Relation.Sound ⟨right, rows'⟩ →
        join.result ⟨left, rows⟩ ⟨right, rows'⟩ = .ok ⟨joined,
          matching matched (fun x => x.1.beside (x.2.only (join.emitted left right))) rows rows'⟩ := by
  obtain ⟨joined, hjoined⟩ := Relation.exists_joinSchema ⟨left, []⟩ ⟨right, []⟩
  have hcolumns := Schema.joined_joinSchema hjoined
  cases join with
  | equi names others =>
    rcases equi_checks left right names others with hrefused | ⟨i, j, hlength, hi, hj⟩
    · exact .inl hrefused
    · refine .inr ⟨joined, Row.agree (i.zip j), hcolumns, fun rows rows' hr hs => ?_⟩
      rw [result, hr.equiJoin_eq hs hlength hi hj hjoined, Relation.matching_beside hs]
      rfl
  | theta condition =>
    rcases theta_checks left right condition with
      hrefused | ⟨c, i, j, column, other, hc, hi, hj, hkind⟩
    · exact .inl hrefused
    · let matched (x : Row × Row) : Bool :=
        c.operator.decides (x.1.values.cell i) (x.2.values.cell j)
      refine .inr ⟨joined, matched, hcolumns, fun rows rows' hr hs => ?_⟩
      rw [result, hr.thetaJoin_eq hs hc hi hj hkind hjoined, Relation.matching_beside hs]
      rfl
  | natural projectRight =>
    obtain ⟨joined, hcolumns, hkey⟩ := left.exists_naturalSchema right projectRight
    exact .inr ⟨joined, Row.agree (left.sharedPositions right),
      Schema.joined_of_columnsAt Schema.emitted_lt hcolumns,
      fun rows rows' hr hs => hr.naturalJoin_eq hs hcolumns hkey⟩

/-- A join that succeeds is one pairing, also of other rows of the same schemas. -/
theorem exists_pairing (join : Join) {r s joined : Relation} (hr : r.Sound) (hs : s.Sound)
    (h : join.result r s = .ok joined) :
    ∃ matched combine, combine = (fun x => x.1.beside (x.2.only (join.emitted r.schema s.schema))) ∧
      Schema.Joined r.schema s.schema (join.emitted r.schema s.schema) joined.schema ∧
      joined.rows = matching matched combine r.rows s.rows ∧
      ∀ rows rows', Relation.Sound ⟨r.schema, rows⟩ → Relation.Sound ⟨s.schema, rows'⟩ →
        join.result ⟨r.schema, rows⟩ ⟨s.schema, rows'⟩ =
          .ok ⟨joined.schema, matching matched combine rows rows'⟩ := by
  rcases join.result_cases r.schema s.schema with
    ⟨fault, -, hrefused⟩ | ⟨schema, matched, hcolumns, hresult⟩
  · cases (hrefused r.rows s.rows).symm.trans h
  · obtain rfl := Except.ok.inj ((hresult r.rows s.rows hr hs).symm.trans h)
    exact ⟨matched, _, rfl, hcolumns, rfl, hresult⟩

end Join

/-! ## Two relations that share a name -/

namespace Relation

theorem sound_ofTuples {schema : Schema} {tuples : List Tuple}
    (h : tuples.all (fun t => schema.fits (.tuple t)) = true) :
    Sound ⟨schema, tuples.map .tuple⟩ := by
  intro row hrow
  obtain ⟨t, ht, rfl⟩ := List.mem_map.1 hrow
  have hfits := List.all_eq_true.1 h t ht
  unfold Schema.fits at hfits
  cases hvalid : schema.validate (.tuple t) with
  | error fault => simp [hvalid, Except.isOk, Except.toBool] at hfits
  | ok values =>
    obtain ⟨rfl, hfit⟩ := Schema.validate_eq_ok.1 hvalid
    exact ⟨_, rfl, hfit⟩

/-- Whole numbers, with one of them twice in the first column. -/
def counts : Relation where
  schema := {
    columns := [⟨"x", .integer64⟩, ⟨"n", .integer64⟩]
    key := ["n"]
    names_nodup := by simp
    key_ne_nil := by simp
    key_subset := by simp }
  rows := [[.int 1, .int 5], [.int 2, .int 7], [.int 2, .int 0]].map .tuple

/-- The doubles 1, 2 and `NaN`, with weights. -/
def weights : Relation where
  schema := {
    columns := [⟨"x", .float64⟩, ⟨"w", .integer64⟩]
    key := ["w"]
    names_nodup := by simp
    key_ne_nil := by simp
    key_subset := by simp }
  rows := [[.float (.ofBits 0x4000000000000000), .int 3], [.float .nan, .int 4],
    [.float (.ofBits 0x3ff0000000000000), .int 6],
    [.float (.ofBits 0x4000000000000000), .int 7]].map .tuple

theorem sound_counts : counts.Sound := sound_ofTuples (by decide)

theorem sound_weights : weights.Sound := sound_ofTuples (by decide)

theorem exists_of_toOption {α β : Type} {x : Except Fault α} (f : α → β) {b : β}
    (h : x.toOption.map f = some b) : ∃ result, x = .ok result ∧ f result = b := by
  cases x with
  | error fault => cases h
  | ok result => exact ⟨result, rfl, Option.some.inj h⟩

theorem exists_of_length {x : Except Fault Relation} {n : Nat}
    (h : x.toOption.map (·.rows.length) = some n) : ∃ result, x = .ok result ∧ result.rows.length = n :=
  exists_of_toOption (fun r : Relation => r.rows.length) h

end Relation

end KeyedRelations
