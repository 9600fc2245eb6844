import KeyedRelations.Operation
import KeyedRelations.Proofs.Schema.FreshNames
import KeyedRelations.Proofs.Schema.Rows
import KeyedRelations.Proofs.Index.Passage

/-!
# The rows of results

Every row that an operation of the algebra puts into its result is a tuple that fits the schema of
the result, as long as this holds of the operands.
-/

namespace KeyedRelations

/-- A tuple of fitting values. -/
def Row.Fits (domains : List Domain) (row : Row) : Prop :=
  ∃ t, row = .tuple t ∧ Fitting domains t

theorem Row.Fits.length_values {row : Row} {domains : List Domain} (h : row.Fits domains) :
    row.values.length = domains.length := by
  obtain ⟨t, rfl, hfit⟩ := h
  exact hfit.length_eq.symm

theorem Tuple.pick_range (t : Tuple) : t.pick (List.range t.length) = t :=
  List.ext_getElem (by simp) fun i _ hi => by simp [pick, cell_of_lt t hi]

/-- All rows fit the schema. -/
def Relation.Sound (r : Relation) : Prop := ∀ row ∈ r.rows, row.Fits r.schema.domains

/-! ## Scans -/

theorem mem_scan {f : Row → Except Fault (Option Row)} {rows found : List Row}
    (h : scan f rows = .ok found) {row' : Row} (hrow : row' ∈ found) :
    ∃ row ∈ rows, f row = .ok (some row') := by
  induction rows generalizing found with
  | nil =>
    cases h
    cases hrow
  | cons row rows ih =>
    obtain ⟨result, hresult, h⟩ := exists_of_bind_eq_ok h
    cases result with
    | none =>
      obtain ⟨other, hother, heq⟩ := ih h hrow
      exact ⟨other, List.mem_cons_of_mem _ hother, heq⟩
    | some kept =>
      obtain ⟨rest, hrest, h⟩ := exists_of_bind_eq_ok h
      cases h
      rcases List.mem_cons.1 hrow with rfl | hrow
      · exact ⟨row, List.mem_cons_self, hresult⟩
      · obtain ⟨other, hother, heq⟩ := ih hrest hrow
        exact ⟨other, List.mem_cons_of_mem _ hother, heq⟩

theorem subset_of_keep {p : Predicate} {rows kept : List Row} (h : keep p rows = .ok kept) :
    kept ⊆ rows := by
  intro row' hrow
  obtain ⟨row, hmem, heq⟩ := mem_scan h hrow
  obtain ⟨answer, -, heq⟩ := exists_of_bind_eq_ok heq
  cases answer with
  | false => cases heq
  | true =>
    cases heq
    exact hmem

theorem subset_of_unseen {seen : Std.HashSet ExactRow} {rows rest : List Row}
    (h : unseen seen rows = .ok rest) : rest ⊆ rows := by
  induction rows generalizing seen rest with
  | nil =>
    cases h
    exact List.Subset.refl _
  | cons row rows ih =>
    obtain ⟨form?, -, h⟩ := exists_of_bind_eq_ok h
    cases form? with
    | none =>
      obtain ⟨others, hothers, h⟩ := exists_of_bind_eq_ok h
      cases h
      exact List.cons_subset_cons row (ih hothers)
    | some key =>
      dsimp only at h
      split_ifs at h
      · exact List.subset_cons_of_subset row (ih h)
      · obtain ⟨others, hothers, h⟩ := exists_of_bind_eq_ok h
        cases h
        exact List.cons_subset_cons row (ih hothers)

theorem mem_joinRows {partner : Row → Except Fault Partner} {left right joined : List Row}
    (h : joinRows partner right left = .ok joined) {row : Row} (hrow : row ∈ joined) :
    ∃ a ∈ left, ∃ b ∈ right, ∃ p, partner a = .ok p ∧ p b = .ok (some row) := by
  induction left generalizing joined with
  | nil =>
    cases h
    cases hrow
  | cons a left ih =>
    obtain ⟨p, hp, h⟩ := exists_of_bind_eq_ok h
    obtain ⟨here, hhere, h⟩ := exists_of_bind_eq_ok h
    obtain ⟨rest, hrest, h⟩ := exists_of_bind_eq_ok h
    cases h
    rcases List.mem_append.1 hrow with hrow | hrow
    · obtain ⟨b, hb, heq⟩ := mem_scan hhere hrow
      exact ⟨a, List.mem_cons_self, b, hb, p, hp, heq⟩
    · obtain ⟨other, hother, found⟩ := ih hrest hrow
      exact ⟨other, List.mem_cons_of_mem _ hother, found⟩

theorem mem_of_mapM_eq_ok {α β : Type} {f : α → Except Fault β} {as : List α} {bs : List β}
    (h : as.mapM f = .ok bs) {b : β} (hb : b ∈ bs) : ∃ a ∈ as, f a = .ok b := by
  induction as generalizing bs with
  | nil =>
    cases h
    cases hb
  | cons a as ih =>
    rw [List.mapM_cons] at h
    obtain ⟨first, hfirst, h⟩ := exists_of_bind_eq_ok h
    obtain ⟨rest, hrest, h⟩ := exists_of_bind_eq_ok h
    cases h
    rcases List.mem_cons.1 hb with rfl | hb
    · exact ⟨a, List.mem_cons_self, hfirst⟩
    · obtain ⟨other, hother, heq⟩ := ih hrest hb
      exact ⟨other, List.mem_cons_of_mem a hother, heq⟩

/-! ## Domains of derived schemas -/

namespace Schema

variable {schema other result : Schema}

theorem positions_lt {names : List String} {positions : List Nat}
    (h : schema.positions names = .ok positions) : ∀ i ∈ positions, i < schema.arity := by
  unfold Schema.positions at h
  split at h
  · rename_i hmissing
    cases h
    intro i hi
    obtain ⟨name, hname, rfl⟩ := List.mem_map.1 hi
    have hhas := List.filter_eq_nil_iff.1 hmissing name hname
    have hmem : name ∈ schema.attributes := by simpa [has] using hhas
    simpa [arity, attributes] using List.idxOf_lt_length_iff.2 hmem
  · cases h

theorem domains_of_define {columns : List Column} {key : List String}
    (h : define columns key = .ok result) : result.domains = columns.map (·.domain) := by
  rw [domains, (columns_key_of_define h).1]

theorem map_domain_columnsAt (positions : List Nat) :
    (schema.columnsAt positions).map (·.domain) =
      positions.filterMap fun i => schema.domains[i]? := by
  simp [columnsAt, domains, List.map_filterMap]

theorem domains_of_concat (h : schema.concat other = .ok result) :
    result.domains = schema.domains ++ other.domains := by
  rw [domains_of_define h, List.map_append]
  rfl

theorem domains_of_disambiguate {taken : List String}
    (h : schema.disambiguate taken = .ok result) : result.domains = schema.domains := by
  rw [domains_of_define h, map_domain_freshColumns]
  rfl

theorem columnsAt_positionsOutside : other.columnsAt (other.positionsOutside schema) =
    other.columns.filter fun column => !schema.has column.name := by
  unfold columnsAt positionsOutside
  -- Both sides go through the columns with their positions.
  conv_rhs => rw [← List.zipIdx_map_fst 0 other.columns, List.filter_map]
  rw [List.filterMap_map]
  refine List.filterMap_eq_map_iff_forall_eq_some.2 ?_
  rintro ⟨column, i⟩ hmem
  exact List.mk_mem_zipIdx_iff_getElem?.1 (List.mem_filter.1 hmem).1

theorem domains_of_extend (h : schema.extend other = .ok result) :
    result.domains = schema.domains ++
      (other.positionsOutside schema).filterMap fun i => other.domains[i]? := by
  rw [domains_of_define h, List.map_append, ← columnsAt_positionsOutside, map_domain_columnsAt]
  rfl

theorem positionsOutside_lt : ∀ i ∈ schema.positionsOutside other, i < schema.arity := by
  intro i hi
  obtain ⟨⟨c, j⟩, hc, rfl⟩ := List.mem_map.1 hi
  have hget := List.mk_mem_zipIdx_iff_getElem?.1 (List.mem_filter.1 hc).1
  obtain ⟨hlt, -⟩ := List.getElem?_eq_some_iff.1 hget
  exact hlt

theorem firstDifferent?_eq_none {as bs : List Domain} (hlength : as.length = bs.length)
    {position : Nat} (h : firstDifferent? position as bs = none) : as = bs := by
  induction as generalizing bs position with
  | nil => exact (List.length_eq_zero_iff.1 hlength.symm).symm
  | cons a as ih =>
    cases bs with
    | nil => simp at hlength
    | cons b bs =>
      unfold firstDifferent? at h
      split_ifs at h with hab
      rw [hab, ih (Nat.succ.inj hlength) h]

theorem domains_of_checkCompatible (h : schema.checkCompatible other = .ok ()) :
    schema.domains = other.domains := by
  unfold checkCompatible mismatch? at h
  split_ifs at h with hlength
  cases hdifferent : firstDifferent? 0 schema.domains other.domains with
  | some cause => simp [hdifferent] at h
  | none =>
    refine firstDifferent?_eq_none ?_ hdifferent
    rw [length_domains, length_domains]
    exact not_ne_iff.1 hlength

end Schema

/-! ## Rows put together -/

namespace Row

variable {schema : Schema} {domains others : List Domain} {a b row : Row}

theorem Fits.pick (ha : a.Fits schema.domains) {positions : List Nat} {t : Tuple}
    (hpositions : ∀ i ∈ positions, i < schema.arity) (h : a.pick positions = .ok t) :
    Fitting (positions.filterMap fun i => schema.domains[i]?) t := by
  obtain ⟨values, rfl, hfit⟩ := ha
  have hlt : ∀ i ∈ positions, i < values.length := by
    intro i hi
    rw [← hfit.length_eq, Schema.length_domains]
    exact hpositions i hi
  rw [pick_tuple hlt] at h
  cases h
  exact Schema.fitting_pick hfit hpositions

theorem Fits.append (ha : a.Fits domains) (hb : b.Fits others) (h : a.append b = .ok row) :
    row.Fits (domains ++ others) := by
  obtain ⟨values, rfl, hvalues⟩ := ha
  obtain ⟨more, rfl, hmore⟩ := hb
  cases h
  exact ⟨_, rfl, List.rel_append hvalues hmore⟩

end Row

namespace Relation

variable {r s result : Relation}

theorem mem_joinEqual {left right : List Nat} {f : Row → Row → Except Fault Row} {rows : List Row}
    (h : r.joinEqual s left right f = .ok rows) {row : Row} (hrow : row ∈ rows) :
    ∃ a ∈ r.rows, ∃ b ∈ s.rows, f a b = .ok row := by
  obtain ⟨a, ha, b, hb, p, hp, heq⟩ := mem_joinRows h hrow
  obtain ⟨values, -, hp⟩ := exists_of_bind_eq_ok hp
  cases hp
  obtain ⟨holds, -, heq⟩ := exists_of_bind_eq_ok heq
  cases holds with
  | false => cases heq
  | true =>
    obtain ⟨joined, hjoined, heq⟩ := exists_of_bind_eq_ok heq
    cases heq
    exact ⟨a, ha, b, hb, hjoined⟩

theorem domains_of_joinSchema {schema : Schema} (h : r.joinSchema s = .ok schema) :
    schema.domains = r.schema.domains ++ s.schema.domains := by
  obtain ⟨renamed, hrenamed, h⟩ := exists_of_bind_eq_ok h
  rw [Schema.domains_of_concat h, Schema.domains_of_disambiguate hrenamed]

/-! ## The operators -/

theorem Sound.project (hr : r.Sound) {names : List String} (h : r.project names = .ok result) :
    result.Sound := by
  obtain ⟨schema, hschema, h⟩ := exists_of_bind_eq_ok h
  obtain ⟨positions, hpositions, h⟩ := exists_of_bind_eq_ok h
  obtain ⟨rows, hrows, h⟩ := exists_of_bind_eq_ok h
  cases h
  obtain ⟨positions', hpositions', hschema⟩ := exists_of_bind_eq_ok hschema
  obtain rfl : positions' = positions := by simpa [hpositions'] using hpositions
  intro row hrow
  obtain ⟨source, hsource, heq⟩ := mem_of_mapM_eq_ok hrows hrow
  obtain ⟨t, ht, heq⟩ := exists_of_bind_eq_ok heq
  cases heq
  refine ⟨t, rfl, ?_⟩
  rw [Schema.domains_of_define hschema, Schema.map_domain_columnsAt]
  exact (hr source hsource).pick (Schema.positions_lt hpositions') ht

theorem Sound.selectWhere (hr : r.Sound) {p : Predicate} (h : r.selectWhere p = .ok result) :
    result.Sound := by
  obtain ⟨rows, hrows, h⟩ := exists_of_bind_eq_ok h
  cases h
  exact fun row hrow => hr row (subset_of_keep hrows hrow)

theorem Sound.selectCondition (hr : r.Sound) {condition : String}
    (h : r.selectCondition condition = .ok result) : result.Sound := by
  obtain ⟨c, -, h⟩ := exists_of_bind_eq_ok h
  obtain ⟨⟨i, column⟩, -, h⟩ := exists_of_bind_eq_ok h
  dsimp only at h
  split_ifs at h
  · cases h
  · exact hr.selectWhere h

theorem Sound.union (hr : r.Sound) (hs : s.Sound) (h : r.union s = .ok result) :
    result.Sound := by
  obtain ⟨⟨⟩, hcompatible, h⟩ := exists_of_bind_eq_ok h
  obtain ⟨seen, -, h⟩ := exists_of_bind_eq_ok h
  obtain ⟨rest, hrest, h⟩ := exists_of_bind_eq_ok h
  cases h
  intro row hrow
  rcases List.mem_append.1 hrow with hrow | hrow
  · exact hr row hrow
  · change row.Fits r.schema.domains
    rw [Schema.domains_of_checkCompatible hcompatible]
    exact hs row (subset_of_unseen hrest hrow)

theorem Sound.minus (hr : r.Sound) (h : r.minus s = .ok result) : result.Sound := by
  obtain ⟨-, -, h⟩ := exists_of_bind_eq_ok h
  obtain ⟨excluded, -, h⟩ := exists_of_bind_eq_ok h
  obtain ⟨rows, hrows, h⟩ := exists_of_bind_eq_ok h
  cases h
  exact fun row hrow => hr row (subset_of_keep hrows hrow)

theorem Sound.equiJoin (hr : r.Sound) (hs : s.Sound) {left right : List String}
    (h : r.equiJoin s left right = .ok result) : result.Sound := by
  unfold Relation.equiJoin at h
  split_ifs at h
  · cases h
  obtain ⟨i, -, h⟩ := exists_of_bind_eq_ok h
  obtain ⟨j, -, h⟩ := exists_of_bind_eq_ok h
  obtain ⟨schema, hschema, h⟩ := exists_of_bind_eq_ok h
  obtain ⟨rows, hrows, h⟩ := exists_of_bind_eq_ok h
  cases h
  intro row hrow
  obtain ⟨a, ha, b, hb, heq⟩ := mem_joinEqual hrows hrow
  rw [domains_of_joinSchema hschema]
  exact (hr a ha).append (hs b hb) heq

theorem Sound.thetaJoin (hr : r.Sound) (hs : s.Sound) {condition : String}
    (h : r.thetaJoin s condition = .ok result) : result.Sound := by
  obtain ⟨c, -, h⟩ := exists_of_bind_eq_ok h
  obtain ⟨⟨i, left⟩, -, h⟩ := exists_of_bind_eq_ok h
  obtain ⟨⟨j, right⟩, -, h⟩ := exists_of_bind_eq_ok h
  dsimp only at h
  split_ifs at h
  · cases h
  obtain ⟨schema, hschema, h⟩ := exists_of_bind_eq_ok h
  obtain ⟨rows, hrows, h⟩ := exists_of_bind_eq_ok h
  cases h
  intro row hrow
  obtain ⟨a, ha, b, hb, p, hp, heq⟩ := mem_joinRows hrows hrow
  obtain ⟨v, -, hp⟩ := exists_of_bind_eq_ok hp
  cases hp
  obtain ⟨w, -, heq⟩ := exists_of_bind_eq_ok heq
  obtain ⟨holds, -, heq⟩ := exists_of_bind_eq_ok heq
  cases holds with
  | false => cases heq
  | true =>
    obtain ⟨joined, hjoined, heq⟩ := exists_of_bind_eq_ok heq
    cases heq
    rw [domains_of_joinSchema hschema]
    exact (hr a ha).append (hs b hb) hjoined

theorem Sound.naturalJoin (hr : r.Sound) (hs : s.Sound) {projectRight : Bool}
    (h : r.naturalJoin s projectRight = .ok result) : result.Sound := by
  unfold Relation.naturalJoin at h
  dsimp only at h
  split_ifs at h with hcommon hright
  · obtain ⟨schema, hschema, h⟩ := exists_of_bind_eq_ok h
    obtain ⟨rows, hrows, h⟩ := exists_of_bind_eq_ok h
    cases h
    intro row hrow
    obtain ⟨a, ha, b, hb, heq⟩ := mem_joinEqual hrows hrow
    rw [Schema.domains_of_concat hschema]
    exact (hr a ha).append (hs b hb) heq
  · obtain ⟨i, -, h⟩ := exists_of_bind_eq_ok h
    obtain ⟨j, -, h⟩ := exists_of_bind_eq_ok h
    obtain ⟨schema, hschema, h⟩ := exists_of_bind_eq_ok h
    obtain ⟨rows, hrows, h⟩ := exists_of_bind_eq_ok h
    cases h
    intro row hrow
    obtain ⟨a, ha, b, hb, heq⟩ := mem_joinEqual hrows hrow
    obtain ⟨t, ht, heq⟩ := exists_of_bind_eq_ok heq
    have hrest := (hs b hb).pick Schema.positionsOutside_lt ht
    rw [Schema.domains_of_extend hschema]
    exact (hr a ha).append ⟨t, rfl, hrest⟩ heq
  · obtain ⟨i, -, h⟩ := exists_of_bind_eq_ok h
    obtain ⟨j, -, h⟩ := exists_of_bind_eq_ok h
    obtain ⟨rows, hrows, h⟩ := exists_of_bind_eq_ok h
    cases h
    intro row hrow
    obtain ⟨a, ha, b, hb, heq⟩ := mem_joinEqual hrows hrow
    cases heq
    exact hr row ha

end Relation

end KeyedRelations
