import KeyedRelations.Proofs.Relation.Rows
import KeyedRelations.Proofs.Schema.Derived

/-!
# The schemas of results

The schema of a result is that of the left operand, a projection of it, or the left columns with right
columns behind them. Whether columns and a key make a schema is decided where they are put together,
and joins only put together what makes one, whatever the columns are called and whatever the rows are.
-/

namespace KeyedRelations

open Schema (Derivation)

/-! ## Where schemas come from -/

namespace Relation

variable {r s result : Relation}

theorem schema_of_selectWhere {p : Predicate} (h : r.selectWhere p = .ok result) :
    result.schema = r.schema := by
  obtain ⟨rows, -, h⟩ := exists_of_bind_eq_ok h
  cases h
  rfl

theorem schema_of_selectCondition {condition : String}
    (h : r.selectCondition condition = .ok result) : result.schema = r.schema := by
  obtain ⟨c, -, h⟩ := exists_of_bind_eq_ok h
  obtain ⟨⟨i, column⟩, -, h⟩ := exists_of_bind_eq_ok h
  dsimp only at h
  split_ifs at h
  · cases h
  · exact schema_of_selectWhere h

theorem derivation_project {names : List String} (h : r.project names = .ok result) :
    Derivation r.schema r.schema result.schema := by
  obtain ⟨schema, hschema, h⟩ := exists_of_bind_eq_ok h
  obtain ⟨positions, -, h⟩ := exists_of_bind_eq_ok h
  obtain ⟨rows, -, h⟩ := exists_of_bind_eq_ok h
  cases h
  exact .projected hschema

theorem derivation_union (h : r.union s = .ok result) :
    Derivation r.schema s.schema result.schema := by
  obtain ⟨-, -, h⟩ := exists_of_bind_eq_ok h
  obtain ⟨seen, -, h⟩ := exists_of_bind_eq_ok h
  obtain ⟨rest, -, h⟩ := exists_of_bind_eq_ok h
  cases h
  exact .same

theorem derivation_minus (h : r.minus s = .ok result) :
    Derivation r.schema s.schema result.schema := by
  obtain ⟨-, -, h⟩ := exists_of_bind_eq_ok h
  obtain ⟨excluded, -, h⟩ := exists_of_bind_eq_ok h
  obtain ⟨rows, -, h⟩ := exists_of_bind_eq_ok h
  cases h
  exact .same

theorem derivation_joinSchema {schema : Schema} (h : r.joinSchema s = .ok schema) :
    Derivation r.schema s.schema schema := by
  obtain ⟨renamed, hrenamed, h⟩ := exists_of_bind_eq_ok h
  exact .joined hrenamed h

theorem derivation_equiJoin {left right : List String} (h : r.equiJoin s left right = .ok result) :
    Derivation r.schema s.schema result.schema := by
  unfold equiJoin at h
  split_ifs at h
  · cases h
  obtain ⟨i, -, h⟩ := exists_of_bind_eq_ok h
  obtain ⟨j, -, h⟩ := exists_of_bind_eq_ok h
  obtain ⟨schema, hschema, h⟩ := exists_of_bind_eq_ok h
  obtain ⟨rows, -, h⟩ := exists_of_bind_eq_ok h
  cases h
  exact derivation_joinSchema hschema

theorem derivation_thetaJoin {condition : String} (h : r.thetaJoin s condition = .ok result) :
    Derivation r.schema s.schema result.schema := by
  obtain ⟨c, -, h⟩ := exists_of_bind_eq_ok h
  obtain ⟨⟨i, left⟩, -, h⟩ := exists_of_bind_eq_ok h
  obtain ⟨⟨j, right⟩, -, h⟩ := exists_of_bind_eq_ok h
  dsimp only at h
  split_ifs at h
  · cases h
  obtain ⟨schema, hschema, h⟩ := exists_of_bind_eq_ok h
  obtain ⟨rows, -, h⟩ := exists_of_bind_eq_ok h
  cases h
  exact derivation_joinSchema hschema

theorem derivation_naturalJoin {projectRight : Bool}
    (h : r.naturalJoin s projectRight = .ok result) :
    Derivation r.schema s.schema result.schema := by
  unfold naturalJoin at h
  dsimp only at h
  split_ifs at h
  · obtain ⟨schema, hschema, h⟩ := exists_of_bind_eq_ok h
    obtain ⟨rows, -, h⟩ := exists_of_bind_eq_ok h
    cases h
    exact .product hschema
  · obtain ⟨i, -, h⟩ := exists_of_bind_eq_ok h
    obtain ⟨j, -, h⟩ := exists_of_bind_eq_ok h
    obtain ⟨schema, hschema, h⟩ := exists_of_bind_eq_ok h
    obtain ⟨rows, -, h⟩ := exists_of_bind_eq_ok h
    cases h
    exact .extended hschema
  · obtain ⟨i, -, h⟩ := exists_of_bind_eq_ok h
    obtain ⟨j, -, h⟩ := exists_of_bind_eq_ok h
    obtain ⟨rows, -, h⟩ := exists_of_bind_eq_ok h
    cases h
    exact .same

end Relation

theorem UnaryOperation.derivation {op : UnaryOperation} {t : Table} {result : Relation}
    (h : op.result t = .ok result) : Derivation t.schema t.schema result.schema := by
  cases op with
  | project names => exact Relation.derivation_project h
  | selectWhere p => exact Relation.schema_of_selectWhere h ▸ .same
  | selectCondition condition => exact Relation.schema_of_selectCondition h ▸ .same
  | selectKey v =>
    obtain ⟨key, -, h⟩ := exists_of_bind_eq_ok h
    obtain ⟨row?, -, h⟩ := exists_of_bind_eq_ok h
    cases h
    exact .same

theorem BinaryOperation.derivation {op : BinaryOperation} {t u : Table} {result : Relation}
    (h : op.result t u = .ok result) : Derivation t.schema u.schema result.schema := by
  cases op with
  | union => exact Relation.derivation_union h
  | minus => exact Relation.derivation_minus h
  | equiJoin left right => exact Relation.derivation_equiJoin h
  | thetaJoin condition => exact Relation.derivation_thetaJoin h
  | naturalJoin projectRight => exact Relation.derivation_naturalJoin h
  | indexJoin | hashJoin => cases h

/-- Columns and a key make a schema or are refused with a fault of definition, whether they are
declared or decoded from a record. The schema of every result comes from those of the operands, with
a key of their names. The positions of every schema are those of its names, and several names are
resolved to their positions unless some are absent, which are then reported together. -/
theorem Schema.formed_everywhere :
    (∀ columns key, Decides columns key.attributes (declare (columns.map .column) key)) ∧
    (∀ r : SchemaRecord, Decides r.columns r.key (ofRecord r)) ∧
    (∀ (op : UnaryOperation) (t : Table) result, op.result t = .ok result →
      Derivation t.schema t.schema result.schema) ∧
    (∀ (op : BinaryOperation) (t u : Table) result, op.result t u = .ok result →
      Derivation t.schema u.schema result.schema) ∧
    (∀ left right result, Derivation left right result →
      WellFormed result.columns result.key ∧
        (result.key = left.key ∧ result.keyPositions = left.keyPositions ∨
          ∃ names, left.project names = .ok result ∧ result.attributes = names ∧
            result.key = if left.key.all names.contains then left.key else names)) ∧
    (∀ (schema : Schema) taken, ∃ result, schema.disambiguate taken = .ok result ∧
      WellFormed result.columns result.key ∧ result.keyPositions = schema.keyPositions) ∧
    (∀ schema : Schema, schema.Located) ∧
    ∀ (schema : Schema) names, schema.Resolves names (schema.positions names) := by
  refine ⟨fun columns key => ?_, fun r => decides_define r.columns r.key,
    fun _ _ _ => UnaryOperation.derivation, fun _ _ _ _ => BinaryOperation.derivation,
    fun _ _ result hresult => ⟨result.wellFormed, hresult.key⟩, fun schema taken => ?_,
    located, resolves_positions⟩
  · rw [declare_columns]
    exact decides_define columns key.attributes
  · obtain ⟨result, hresult, hrenamed⟩ := schema.renamed_disambiguate taken
    exact ⟨result, hresult, result.wellFormed, hrenamed.keyPositions⟩

/-- The key column in front of the other one. -/
def keyFirst : Schema where
  columns := [⟨"number", .integer64⟩, ⟨"title", .string⟩]
  key := ["number"]
  names_nodup := by decide
  key_ne_nil := by decide
  key_subset := by decide

/-- The key column behind the other one. -/
def keyLast : Schema where
  columns := [⟨"title", .string⟩, ⟨"number", .integer64⟩]
  key := ["number"]
  names_nodup := by decide
  key_ne_nil := by decide
  key_subset := by decide

theorem Schema.formed_everywhere_key_moved :
    (UnaryOperation.project ["title", "number"]).result (Table.empty ⟨0⟩ "t" keyFirst) =
        .ok ⟨keyLast, []⟩ ∧
      Derivation keyFirst keyFirst keyLast ∧ WellFormed keyLast.columns keyLast.key ∧
      keyLast.Located := by
  obtain ⟨-, -, hunary, -, hkept, -, hlocated, -⟩ := Schema.formed_everywhere
  have hresult : (UnaryOperation.project ["title", "number"]).result (Table.empty ⟨0⟩ "t" keyFirst) =
      .ok ⟨keyLast, []⟩ := rfl
  have hderived : Derivation keyFirst keyFirst keyLast := hunary _ _ _ hresult
  exact ⟨hresult, hderived, (hkept _ _ _ hderived).1, hlocated keyLast⟩

/-! ## Joins find a schema -/

/-- Whether a computation does not fail for want of a schema. -/
def FindsSchema {α : Type} (x : Except Fault α) : Prop := ∀ cause, x ≠ .error (.definition cause)

section Rules

variable {α β : Type} {x : Except Fault α}

theorem findsSchema_ok (a : α) : FindsSchema (.ok a : Except Fault α) := nofun

theorem findsSchema_error {fault : Fault} (h : ∀ cause, fault ≠ .definition cause) :
    FindsSchema (.error fault : Except Fault α) :=
  fun cause heq => h cause (Except.error.inj heq)

theorem FindsSchema.bind {f : α → Except Fault β} (hx : FindsSchema x)
    (hf : ∀ a, x = .ok a → FindsSchema (f a)) : FindsSchema (x >>= f) := by
  cases x with
  | ok a => exact hf a rfl
  | error fault => exact findsSchema_error fun cause heq => hx cause (congrArg _ heq)

theorem findsSchema_mapM {f : β → Except Fault α} (hf : ∀ b, FindsSchema (f b)) (bs : List β) :
    FindsSchema (bs.mapM f) := by
  induction bs with
  | nil => exact findsSchema_ok []
  | cons b bs ih =>
    rw [List.mapM_cons]
    exact (hf b).bind fun _ _ => ih.bind fun _ _ => findsSchema_ok _

theorem findsSchema_scan {f : Row → Except Fault (Option Row)} (hf : ∀ row, FindsSchema (f row))
    (rows : List Row) : FindsSchema (scan f rows) := by
  induction rows with
  | nil => exact findsSchema_ok []
  | cons row rows ih =>
    refine (hf row).bind fun found? _ => ?_
    cases found? with
    | none => exact ih
    | some row' => exact ih.bind fun _ _ => findsSchema_ok _

theorem findsSchema_joinRows {partner : Row → Except Fault Partner}
    (hpartner : ∀ a, FindsSchema (partner a))
    (hpair : ∀ a p, partner a = .ok p → ∀ b, FindsSchema (p b)) (left right : List Row) :
    FindsSchema (joinRows partner right left) := by
  induction left with
  | nil => exact findsSchema_ok []
  | cons a left ih =>
    exact (hpartner a).bind fun p hp => (findsSchema_scan (hpair a p hp) right).bind fun _ _ =>
      ih.bind fun _ _ => findsSchema_ok _

end Rules

/-! What is asked of rows and of conditions. -/

theorem Row.findsSchema_value (row : Row) (i : Nat) : FindsSchema (row.value i) := by
  unfold value
  split
  · exact findsSchema_ok _
  · exact findsSchema_error nofun

theorem Row.findsSchema_pick (row : Row) (positions : List Nat) :
    FindsSchema (row.pick positions) :=
  findsSchema_mapM row.findsSchema_value positions

theorem Row.findsSchema_append (a b : Row) : FindsSchema (a.append b) := by
  unfold append
  split
  · exact findsSchema_ok _
  · exact findsSchema_ok _
  · exact findsSchema_error nofun

theorem Row.findsSchema_holds (row : Row) (values : Tuple) (positions : List Nat) :
    FindsSchema (row.holds values positions) := by
  induction values generalizing positions with
  | nil => exact findsSchema_ok _
  | cons v values ih =>
    cases positions with
    | nil => exact findsSchema_ok _
    | cons i positions =>
      refine (row.findsSchema_value i).bind fun w _ => ?_
      split_ifs
      · exact ih positions
      · exact findsSchema_ok _

theorem Comparison.findsSchema_test (c : Comparison) (v w : Value) : FindsSchema (c.test v w) := by
  unfold test
  cases c.operator.test v w with
  | ok b => exact findsSchema_ok b
  | error cause => exact findsSchema_error nofun

theorem Comparison.findsSchema_ofJoin (condition : String) : FindsSchema (ofJoin condition) := by
  have hsplit : FindsSchema (split condition) := by
    unfold split
    split
    · split
      · exact findsSchema_ok _
      · exact findsSchema_error nofun
    · exact findsSchema_error nofun
  exact hsplit.bind fun _ _ => findsSchema_ok _

theorem Schema.findsSchema_positions (schema : Schema) (names : List String) :
    FindsSchema (schema.positions names) := by
  unfold positions
  split
  · exact findsSchema_ok _
  · exact findsSchema_error nofun

theorem Schema.findsSchema_resolve (schema : Schema) (name : String) :
    FindsSchema (schema.resolve name) := by
  unfold resolve
  split
  · exact findsSchema_ok _
  · exact findsSchema_error nofun

namespace Relation

variable (r s : Relation)

theorem findsSchema_joinEqual (left right : List Nat) {f : Row → Row → Except Fault Row}
    (hf : ∀ a b, FindsSchema (f a b)) : FindsSchema (r.joinEqual s left right f) := by
  refine findsSchema_joinRows (fun a => ?_) (fun a p hp b => ?_) _ _
  · exact (a.findsSchema_pick left).bind fun _ _ => findsSchema_ok _
  · obtain ⟨values, -, hp⟩ := exists_of_bind_eq_ok hp
    cases hp
    refine (b.findsSchema_holds values right).bind fun holds _ => ?_
    cases holds with
    | false => exact findsSchema_ok _
    | true => exact (hf a b).bind fun _ _ => findsSchema_ok _

/-- The right columns of a join have fresh names, so they find a place behind the left ones. -/
theorem exists_joinSchema : ∃ schema, r.joinSchema s = .ok schema := by
  obtain ⟨renamed, hrenamed, hfresh⟩ := s.schema.renamed_disambiguate r.schema.attributes
  obtain ⟨schema, hschema⟩ := Schema.exists_concat hfresh.notMem_taken
  refine ⟨schema, ?_⟩
  rw [joinSchema, hrenamed]
  exact hschema

theorem findsSchema_equiJoin (left right : List String) : FindsSchema (r.equiJoin s left right) := by
  obtain ⟨schema, hschema⟩ := r.exists_joinSchema s
  unfold equiJoin
  split_ifs
  · exact findsSchema_error nofun
  refine (r.schema.findsSchema_positions left).bind fun i _ => ?_
  refine (s.schema.findsSchema_positions right).bind fun j _ => ?_
  rw [hschema]
  exact (r.findsSchema_joinEqual s i j Row.findsSchema_append).bind fun _ _ => findsSchema_ok _

theorem findsSchema_thetaJoin (condition : String) : FindsSchema (r.thetaJoin s condition) := by
  obtain ⟨schema, hschema⟩ := r.exists_joinSchema s
  refine (Comparison.findsSchema_ofJoin condition).bind fun c _ => ?_
  refine (r.schema.findsSchema_resolve c.left).bind fun ⟨i, left⟩ _ => ?_
  refine (s.schema.findsSchema_resolve c.right.text).bind fun ⟨j, right⟩ _ => ?_
  dsimp only
  split_ifs
  · exact findsSchema_error nofun
  rw [hschema]
  refine (findsSchema_joinRows (fun a => ?_) (fun a p hp b => ?_) _ _).bind
    fun _ _ => findsSchema_ok _
  · exact (a.findsSchema_value i).bind fun _ _ => findsSchema_ok _
  · obtain ⟨v, -, hp⟩ := exists_of_bind_eq_ok hp
    cases hp
    refine (b.findsSchema_value j).bind fun w _ => ?_
    refine (c.findsSchema_test v w).bind fun holds _ => ?_
    cases holds with
    | false => exact findsSchema_ok _
    | true => exact (a.findsSchema_append b).bind fun _ _ => findsSchema_ok _

theorem findsSchema_naturalJoin (projectRight : Bool) :
    FindsSchema (r.naturalJoin s projectRight) := by
  unfold naturalJoin
  dsimp only
  split_ifs with hcommon hright
  · -- Without a common name the names of both sides differ as they are.
    have hother : ∀ name ∈ s.schema.attributes, name ∉ r.schema.attributes := by
      intro name hname hmem
      have hhas := List.filter_eq_nil_iff.1 hcommon name hmem
      exact hhas (by simpa [Schema.has] using hname)
    obtain ⟨schema, hschema⟩ := Schema.exists_concat hother
    rw [hschema]
    exact (r.findsSchema_joinEqual s [] [] Row.findsSchema_append).bind fun _ _ => findsSchema_ok _
  · obtain ⟨schema, hschema⟩ := r.schema.exists_extend s.schema
    refine (r.schema.findsSchema_positions _).bind fun i _ => ?_
    refine (s.schema.findsSchema_positions _).bind fun j _ => ?_
    rw [hschema]
    refine (r.findsSchema_joinEqual s i j fun a b => ?_).bind fun _ _ => findsSchema_ok _
    exact (b.findsSchema_pick _).bind fun _ _ => a.findsSchema_append _
  · refine (r.schema.findsSchema_positions _).bind fun i _ => ?_
    refine (s.schema.findsSchema_positions _).bind fun j _ => ?_
    exact (r.findsSchema_joinEqual s i j fun a _ => findsSchema_ok a).bind
      fun _ _ => findsSchema_ok _

/-- A schema can be disambiguated from any names: columns and key stay where they are, and the new
names are distinct and not taken, each the first free one when its turn comes. So no join of two
relations fails for want of a schema, whatever their columns are called. -/
theorem joins_find_schema :
    (∀ (schema : Schema) taken, ∃ result, schema.disambiguate taken = .ok result ∧
      Schema.Renamed taken schema result) ∧
    ∀ r s : Relation, (∀ left right, FindsSchema (r.equiJoin s left right)) ∧
      (∀ condition, FindsSchema (r.thetaJoin s condition)) ∧
      ∀ projectRight, FindsSchema (r.naturalJoin s projectRight) :=
  ⟨Schema.renamed_disambiguate, fun r s =>
    ⟨r.findsSchema_equiJoin s, r.findsSchema_thetaJoin s, r.findsSchema_naturalJoin s⟩⟩

end Relation

end KeyedRelations
