import KeyedRelations.Proofs.Index.FiniteMap
import KeyedRelations.Proofs.Schema.Rows
import KeyedRelations.Table.Builder

/-!
# The keys of a base table

Rows are offered to a table one by one or in bulk, and those that the table refuses leave it as it
is. The index has as many entries as the table has rows at any time. As long as no stored key has a
`NaN` in it, keys are unique and every row is found under its key. A `NaN` is neither below nor
above any other key, and hides the keys behind it from the search.
-/

namespace KeyedRelations

namespace Builder

variable (b : Builder)

theorem table_append (row : Row) : (b.append row).1.table = (b.table.insert row).1 := by
  unfold append
  rcases b.table.insert row with ⟨t, fault | _⟩
  · cases hrejects : fault.rejectsRow <;> simp [hrejects]
  · rfl

end Builder

/-- A row that a schema accepts has words. -/
theorem Schema.worded_of_validate {schema : Schema} {row : Row} {values : Tuple}
    (h : schema.validate row = .ok values) : row.toValue.Worded := by
  cases row with
  | text s => exact fun n hn => absurd hn List.not_mem_nil
  | tuple ts =>
    obtain ⟨rfl, hfit⟩ := validate_eq_ok.1 h
    exact Value.worded_tuple_iff.2 (Value.worded_key_iff.1 hfit.typed.worded)

namespace Table

variable {t : Table} {row : Row}

theorem examine_worded (hrow : row.toValue.Worded) : t.examine row = t.schema.validate row := by
  have hwords : row.words = .ok row.toValue.plain := Value.words_ok hrow
  unfold examine
  rw [hwords]
  rfl

theorem examine_not_worded (hrow : ¬row.toValue.Worded) : t.examine row = .error .integerLength := by
  have hwords : row.words = .error .integerLength := Value.words_error hrow
  unfold examine
  rw [hwords]
  rfl

theorem examine_eq_ok {values : Tuple} :
    t.examine row = .ok values ↔ t.schema.validate row = .ok values := by
  by_cases hrow : row.toValue.Worded
  · rw [examine_worded hrow]
  · rw [examine_not_worded hrow]
    exact ⟨nofun, fun h => absurd (Schema.worded_of_validate h) hrow⟩

end Table

/-- A way to offer rows to a table. A builder may remember any rows from before. -/
inductive Offer where
  | insert (row : Row)
  | insertOrRaise (row : Row)
  | append (builder : Builder) (row : Row)
  | extend (builder : Builder) (rows : List Row)

namespace Table

def offer (t : Table) : Offer → Table
  | .insert row | .insertOrRaise row => (t.insert row).1
  | .append builder row => ({ builder with table := t }.append row).1.table
  | .extend builder rows => ({ builder with table := t }.extend rows).1.table

/-- What holds of tables and of the tables after an insertion holds after an offer. -/
theorem offer_induction {P : Table → Prop} (hinsert : ∀ t row, P t → P (t.insert row).1) {t : Table}
    (ht : P t) (o : Offer) : P (t.offer o) := by
  have happend : ∀ (b : Builder) (row : Row), P b.table → P (b.append row).1.table := by
    intro b row hb
    rw [b.table_append]
    exact hinsert b.table row hb
  have happendAll : ∀ (rows : List Row) (b : Builder), P b.table → P (b.appendAll rows).1.table := by
    intro rows
    induction rows with
    | nil => exact fun b hb => hb
    | cons row rows ih =>
      intro b hb
      have hstep := happend b row hb
      unfold Builder.appendAll
      generalize b.append row = outcome at hstep ⊢
      obtain ⟨b', _ | _⟩ := outcome
      · exact hstep
      · exact ih b' hstep
  cases o with
  | insert row => exact hinsert t row ht
  | insertOrRaise row => exact hinsert t row ht
  | append builder row => exact happend _ row ht
  | extend builder rows => exact happendAll rows _ ht

/-! ## Keys without `NaN` -/

variable (t : Table)

/-- The key of a row of the table. -/
def keyOf (row : Row) : Key := t.schema.keyOf row.values

/-- No two rows have the same key, every row without `NaN` in its key is found under it, and the
index counts the rows. -/
structure Keyed : Prop where
  unique : t.rows.Pairwise fun a b => Key.order.same (t.keyOf a) (t.keyOf b) = false
  found : ∀ row ∈ t.rows, (t.keyOf row).hasNaN = false →
    t.index.find? Key.order (t.keyOf row) = .ok (some row)
  size_eq : t.index.size = t.rows.length

/-- Whether no row has a `NaN` in its key. -/
def FreeOfNaN : Prop := ∀ row ∈ t.rows, (t.keyOf row).hasNaN = false

/-- The rows fit the schema, and the index has as many entries. As long as there is no `NaN` in any
key, the index holds just the rows. -/
structure InStep : Prop where
  fitting : ∀ row ∈ t.rows, Fitting t.schema.domains row.values
  size_eq : t.index.size = t.rows.length
  represents : t.FreeOfNaN → t.index.Represents (t.rows.map fun row => (t.keyOf row, row))
  unique : t.FreeOfNaN →
    t.rows.Pairwise fun a b => Key.order.same (t.keyOf a) (t.keyOf b) = false

variable {t}

theorem InStep.entries_mem (ht : t.InStep) (hfree : t.FreeOfNaN) :
    ∀ e ∈ t.rows.map fun row => (t.keyOf row, row),
      e.1 ∈ {key | Key.Typed t.schema.keyDomains key ∧ key.hasNaN = false} := by
  intro e he
  obtain ⟨row, hrow, rfl⟩ := List.mem_map.1 he
  exact ⟨(Schema.fitting_keyOf (ht.fitting row hrow)).typed, hfree row hrow⟩

theorem totalOn_union {domains : List Domain} {key : Key} (htyped : Key.Typed domains key)
    (hfree : key.hasNaN = false) :
    Key.order.TotalOn ({key | Key.Typed domains key ∧ key.hasNaN = false} ∪ {key}) := by
  refine (Key.totalOn_typed domains).mono ?_
  rintro other (hother | rfl)
  · exact hother
  · exact ⟨htyped, hfree⟩

theorem InStep.keyed (ht : t.InStep) (hfree : t.FreeOfNaN) : t.Keyed where
  unique := ht.unique hfree
  found := by
    intro row hrow hnan
    have htotal := totalOn_union ((Schema.fitting_keyOf (ht.fitting row hrow)).typed) hnan
    exact (ht.represents hfree).find?_mem (ht.entries_mem hfree) htotal
      (List.mem_map_of_mem hrow)
  size_eq := ht.size_eq

theorem inStep_empty (session : SessionId) (name : String) (schema : Schema) :
    (Table.empty session name schema).InStep where
  fitting := by simp [Table.empty]
  size_eq := rfl
  represents _ := ⟨List.Pairwise.nil, .nil, rfl⟩
  unique _ := List.Pairwise.nil

/-- The ways in which an insertion can end. -/
theorem insert_cases (t : Table) (row : Row) :
    (∃ fault, t.insert row = (t, .error fault)) ∨
    (∃ values index fault, Fitting t.schema.domains values ∧
      t.index.insertAs t.name (t.schema.keyOf values) (.tuple values) = (index, .error fault) ∧
      t.insert row = ({ t with index }, .error fault)) ∨
    ∃ values index, Fitting t.schema.domains values ∧
      t.index.insertAs t.name (t.schema.keyOf values) (.tuple values) = (index, .ok ()) ∧
      t.insert row = ({ t with rows := t.rows ++ [.tuple values], index }, .ok values) := by
  unfold Table.insert
  cases hexamine : t.examine row with
  | error fault => exact .inl ⟨fault, rfl⟩
  | ok values =>
    have hfit := (Schema.validate_eq_ok.1 (examine_eq_ok.1 hexamine)).2
    dsimp only
    rcases hinsert : t.index.insertAs t.name (t.schema.keyOf values) (.tuple values) with
      ⟨index, fault | _⟩
    · exact .inr (.inl ⟨values, index, fault, hfit, hinsert, rfl⟩)
    · exact .inr (.inr ⟨values, index, hfit, hinsert, rfl⟩)

theorem schema_insert (t : Table) (row : Row) : (t.insert row).1.schema = t.schema := by
  rcases t.insert_cases row with
    ⟨fault, heq⟩ | ⟨values, index, fault, -, -, heq⟩ | ⟨values, index, -, -, heq⟩ <;> rw [heq]

theorem InStep.insert (ht : t.InStep) (row : Row) : (t.insert row).1.InStep := by
  rcases t.insert_cases row with
    ⟨fault, heq⟩ | ⟨values, index, fault, -, hinsert, heq⟩ | ⟨values, index, hfit, hinsert, heq⟩
  · rw [heq]
    exact ht
  · rw [heq]
    obtain ⟨hlist, hsize⟩ := PrimaryIndex.toList_of_insertAs_error hinsert
    refine ⟨ht.fitting, hsize.trans ht.size_eq, fun hfree => ?_, ht.unique⟩
    have hrep := ht.represents hfree
    exact (⟨hlist, hsize⟩ : PrimaryIndex.Alike _ _).represents hrep
  · rw [heq]
    have hsize := PrimaryIndex.size_of_insertAs_ok hinsert
    have hfitting : ∀ row ∈ t.rows ++ [.tuple values], Fitting t.schema.domains row.values := by
      intro row hrow
      rcases List.mem_append.1 hrow with hold | hnew
      · exact ht.fitting row hold
      · rw [List.mem_singleton.1 hnew]
        exact hfit
    have hparts : ∀ hfree : FreeOfNaN { t with rows := t.rows ++ [.tuple values], index },
        t.FreeOfNaN ∧ Key.hasNaN (t.schema.keyOf values) = false := by
      intro hfree
      obtain ⟨hold, hnew⟩ := List.forall_mem_append.1 hfree
      exact ⟨hold, hnew (.tuple values) (List.mem_singleton.2 rfl)⟩
    have hadded : ∀ hfree : FreeOfNaN { t with rows := t.rows ++ [.tuple values], index },
        (∀ row ∈ t.rows, Key.order.same (t.keyOf row) (t.schema.keyOf values) = false) ∧
          index.Represents ((t.rows.map fun row => (t.keyOf row, row)) ++
            [(t.schema.keyOf values, .tuple values)]) := by
      intro hfree
      obtain ⟨hold, hnan⟩ := hparts hfree
      have htotal := totalOn_union (Schema.fitting_keyOf hfit).typed hnan
      rcases (ht.represents hold).insertAs (ht.entries_mem hold) htotal t.name (.tuple values) with
        ⟨e, -, -, htaken⟩ | ⟨index', hnew, hok, hrep⟩
      · exact absurd (htaken.symm.trans hinsert) (by simp)
      · obtain ⟨rfl, -⟩ := Prod.mk.inj (hok.symm.trans hinsert)
        exact ⟨fun row hrow => hnew _ (List.mem_map_of_mem hrow), hrep⟩
    refine ⟨hfitting, ?_, fun hfree => ?_, fun hfree => ?_⟩
    · simpa [ht.size_eq] using hsize
    · simpa [keyOf, Row.values] using (hadded hfree).2
    · refine List.pairwise_append.2 ⟨ht.unique (hparts hfree).1, List.pairwise_singleton _ _, ?_⟩
      intro row hrow other hother
      rw [List.mem_singleton.1 hother]
      exact (hadded hfree).1 row hrow

theorem InStep.offer (ht : t.InStep) (o : Offer) :
    (t.offer o).InStep ∧ (t.offer o).schema = t.schema := by
  refine offer_induction (P := fun u => u.InStep ∧ u.schema = t.schema) ?_ ⟨ht, rfl⟩ o
  rintro u row ⟨hu, hschema⟩
  exact ⟨hu.insert row, (u.schema_insert row).trans hschema⟩

end Table

/-! ## Keys with `NaN` -/

theorem Domain.float_of_isNaN {d : Domain} {v : Value} (haccepts : d.accepts v = true)
    (hnan : v.isNaN = true) : d = .float64 ∨ d = .float32 := by
  cases d with
  | float64 => exact .inl rfl
  | float32 => exact .inr rfl
  | _ => cases v <;> simp [accepts, bits?, Value.isNaN] at haccepts hnan

theorem Key.hasNaN_eq_false {domains : List Domain} {key : Key}
    (hfit : Fitting domains key)
    (hdomains : ∀ d ∈ domains, d ≠ .float64 ∧ d ≠ .float32) : key.hasNaN = false := by
  induction hfit with
  | nil => rfl
  | @cons d v domains key hv _ ih =>
    obtain ⟨hd, hrest⟩ := List.forall_mem_cons.1 hdomains
    have hhead : v.isNaN = false := by
      by_contra hnan
      rcases Domain.float_of_isNaN hv (by simpa using hnan) with heq | heq
      · exact hd.1 heq
      · exact hd.2 heq
    have htail := ih hrest
    unfold hasNaN at htail ⊢
    rw [List.any_cons, hhead, htail]
    rfl

/-- A value of the domain, which is the given double if the domain has doubles. -/
def Domain.sample (x : Double) : Domain → Value
  | .float64 | .float32 => .float x
  | .character | .string => .text "a"
  | _ => .int 0

namespace Double

def quietNaN : Double := ⟨0x7ff8000000000000⟩

def zero : Double := ⟨0⟩

end Double

theorem Domain.accepts_sample (d : Domain) :
    d.accepts (d.sample .quietNaN) = true ∧ d.accepts (d.sample .zero) = true := by
  cases d <;> decide

/-- A key with `NaN` is neither below nor above one without, and not the same. -/
theorem Key.compareAll_sample (op : Operator) {domains : List Domain}
    (hfloat : ∃ d ∈ domains, d = .float64 ∨ d = .float32) :
    let nan := domains.map (Domain.sample .quietNaN)
    let zero := domains.map (Domain.sample .zero)
    Value.compareAll op nan zero = .ok none ∧ Value.compareAll op zero nan = .ok none ∧
      Value.sameAll nan zero = false := by
  induction domains with
  | nil => simp at hfloat
  | cons d domains ih =>
    by_cases hd : d = .float64 ∨ d = .float32
    · rcases hd with rfl | rfl <;> exact ⟨rfl, rfl, rfl⟩
    · obtain ⟨e, he, hkind⟩ := hfloat
      have hrest : e ∈ domains := by
        rcases List.mem_cons.1 he with rfl | he
        · exact absurd hkind hd
        · exact he
      have hsame : d.sample .quietNaN = d.sample .zero ∧
          (d.sample .zero).same (d.sample .zero) = true := by
        cases d <;> simp at hd <;> exact ⟨rfl, rfl⟩
      have hholding := Domain.holding_of_accepts d.accepts_sample.2
      simp only [List.map_cons]
      rw [hsame.1, (compareAll_cons op hholding _ _).1, (compareAll_cons op hholding _ _).1,
        (compareAll_cons op hholding _ _).2, hsame.2]
      exact ih ⟨e, hrest, hkind⟩

namespace PrimaryIndex

variable {κ ρ ε : Type} {order : KeyOrder κ ε} {a b : κ}

open Index in
/-- A key that is not above the first key is not found behind it. -/
theorem find?_hidden (hab : order.less a b = .ok false) (hba : order.less b a = .ok false)
    (hbb : order.less b b = .ok false) (hne : order.same a b = false) (x y : ρ) :
    ∃ index index', (empty : PrimaryIndex κ ρ).insert order a x = (index, .ok ()) ∧
      index.insert order b y = (index', .ok ()) ∧ index'.find? order b = .ok none := by
  have hone : firstNotBelow order [a] b = .ok 0 := by
    simp [firstNotBelow, boundary, hab, bind, Except.bind]
  have htwo : firstNotBelow order [a, b] b = .ok 0 := by
    simp [firstNotBelow, boundary, hab, hbb, bind, Except.bind]
  have habove : firstAbove order [a] b = .ok 1 := by
    simp [firstAbove, boundary, hba, bind, Except.bind, pure, Except.pure]
  refine ⟨⟨32, by decide, 0, [(a, x)], 1⟩, ⟨32, by decide, 0, [(a, x), (b, y)], 2⟩, rfl, ?_, ?_⟩
  · have hnone : (⟨32, by decide, 0, [(a, x)], 1⟩ : PrimaryIndex κ ρ).find? order b = .ok none := by
      simp [find?, Node.find?, hone, hne, bind, Except.bind, pure, Except.pure]
    have hroom : (⟨32, by decide, 0, [(a, x)], 1⟩ : PrimaryIndex κ ρ).withRoom =
        ⟨32, by decide, 0, [(a, x)], 1⟩ := rfl
    unfold insert
    rw [hnone]
    dsimp only
    rw [hroom]
    simp [Node.insert, habove]
  · simp [find?, Node.find?, htwo, hne, bind, Except.bind, pure, Except.pure]

end PrimaryIndex

namespace Schema

variable (schema : Schema)

/-- A row of the schema with the given double in all columns of doubles. -/
def sample (x : Double) : Tuple := schema.domains.map (Domain.sample x)

theorem fitting_sample :
    Fitting schema.domains (schema.sample .quietNaN) ∧
      Fitting schema.domains (schema.sample .zero) := by
  unfold Fitting sample
  simp only [List.forall₂_map_right_iff, List.forall₂_same]
  exact ⟨fun d _ => d.accepts_sample.1, fun d _ => d.accepts_sample.2⟩

theorem keyOf_sample (x : Double) :
    schema.keyOf (schema.sample x) = schema.keyDomains.map (Domain.sample x) := by
  have hlt : ∀ i ∈ schema.keyPositions, i < schema.arity := fun i hi => schema.keyPositions_lt hi
  unfold keyOf keyDomains Tuple.pick
  generalize schema.keyPositions = positions at hlt
  induction positions with
  | nil => rfl
  | cons i positions ih =>
    obtain ⟨hhead, hrest⟩ := List.forall_mem_cons.1 hlt
    have hi : i < schema.domains.length := length_domains.symm ▸ hhead
    have hdomain : schema.domains[i]? = some schema.domains[i] := List.getElem?_eq_getElem hi
    have hcell : Tuple.cell (schema.sample x) i = schema.domains[i].sample x := by
      simp [Tuple.cell, sample, hdomain]
    rw [List.map_cons, List.filterMap_cons_some hdomain, List.map_cons, hcell, ih hrest]

end Schema

namespace Table

variable {t : Table}

theorem insert_ok {values : Tuple} (hfit : Fitting t.schema.domains values) {index : TableIndex}
    (hinsert : t.index.insert Key.order (t.schema.keyOf values) (.tuple values) = (index, .ok ())) :
    t.insert (.tuple values) =
      ({ t with rows := t.rows ++ [.tuple values], index }, .ok values) := by
  unfold Table.insert
  rw [examine_eq_ok.2 (Schema.validate_tuple hfit)]
  dsimp only
  rw [PrimaryIndex.insertAs_ok hinsert]

/-- Behind a row with `NaN` in its key, a row is stored and not found. -/
theorem exists_not_keyed (session : SessionId) (name : String) {schema : Schema}
    (hfloat : ∃ d ∈ schema.keyDomains, d = .float64 ∨ d = .float32) :
    ∃ first second, ¬(((Table.empty session name schema).insert first).1.insert second).1.Keyed := by
  obtain ⟨hnan, hzero⟩ := schema.fitting_sample
  have htyped := (Schema.fitting_keyOf hzero).typed
  have hfree : Key.hasNaN (schema.keyOf (schema.sample .zero)) = false := by
    rw [schema.keyOf_sample, Key.hasNaN, List.any_map, List.any_eq_false]
    intro d _
    cases d <;> decide
  obtain ⟨hless, hgreater, hsame⟩ := Key.compareAll_sample .lt hfloat
  rw [← schema.keyOf_sample, ← schema.keyOf_sample] at hless hgreater hsame
  have hself : Key.order.less (schema.keyOf (schema.sample .zero))
      (schema.keyOf (schema.sample .zero)) = .ok false := by
    rw [(Key.along_line schema.keyDomains).less_eq _ ⟨htyped, hfree⟩ _ ⟨htyped, hfree⟩]
    simp
  obtain ⟨index, index', hinsert, hinsert', hfind⟩ := PrimaryIndex.find?_hidden
    (Key.less_of_compareAll hless) (Key.less_of_compareAll hgreater) hself hsame
    (Row.tuple (schema.sample .quietNaN)) (Row.tuple (schema.sample .zero))
  refine ⟨.tuple (schema.sample .quietNaN), .tuple (schema.sample .zero), fun hkeyed => ?_⟩
  rw [insert_ok (t := Table.empty session name schema) hnan hinsert] at hkeyed
  dsimp only at hkeyed
  rw [insert_ok (by exact hzero) hinsert'] at hkeyed
  have hfound := hkeyed.found (.tuple (schema.sample .zero)) (by simp) hfree
  exact absurd (hfind.symm.trans hfound) (by simp)

end Table

end KeyedRelations
