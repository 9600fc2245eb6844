import KeyedRelations.Schema.Declare
import Mathlib.Data.List.Nodup
import Mathlib.Data.Option.Basic

/-!
# Defining schemas

Columns and a key make a schema just if the names of the columns are distinct and the key is not
empty and names columns only. The positions of a schema are those of its names, so a name is found
where it stands, and names are resolved one by one or reported as absent together.
-/

namespace KeyedRelations

theorem firstRepeated?_eq_none {seen names : List String} (hnodup : names.Nodup)
    (hseen : ∀ name ∈ names, name ∉ seen) : firstRepeated? seen names = none := by
  induction names generalizing seen with
  | nil => rfl
  | cons name rest ih =>
    obtain ⟨hname, hrest⟩ := List.nodup_cons.1 hnodup
    obtain ⟨hhead, htail⟩ := List.forall_mem_cons.1 hseen
    have hnew : ∀ other ∈ rest, other ∉ name :: seen := by
      intro other hother hmem
      rcases List.mem_cons.1 hmem with rfl | hmem
      · exact hname hother
      · exact htail other hother hmem
    unfold firstRepeated?
    rw [if_neg (by simpa using hhead)]
    exact ih hrest hnew

namespace Schema

/-! ## What makes a schema -/

/-- Whether columns and a key make a schema. -/
structure WellFormed (columns : List Column) (key : List String) : Prop where
  names_nodup : (columns.map (·.name)).Nodup
  key_ne_nil : key ≠ []
  key_subset : ∀ name ∈ key, name ∈ columns.map (·.name)

variable {schema : Schema} {columns : List Column} {key : List String}

theorem wellFormed (schema : Schema) : WellFormed schema.columns schema.key :=
  ⟨schema.names_nodup, schema.key_ne_nil, schema.key_subset⟩

theorem WellFormed.define_eq (h : WellFormed columns key) :
    define columns key = .ok ⟨columns, key, h.names_nodup, h.key_ne_nil, h.key_subset⟩ := by
  have hnames : firstRepeated? [] (columns.map (·.name)) = none :=
    firstRepeated?_eq_none h.names_nodup (by simp)
  have hkey : key.filter (!(columns.map (·.name)).contains ·) = [] := by
    apply List.filter_eq_nil_iff.2
    intro name hname
    have hmem := h.key_subset name hname
    simpa using hmem
  unfold define
  dsimp only
  split
  · rename_i hrepeated
    exact absurd (hnames.symm.trans hrepeated) (by simp)
  · split_ifs with hempty
    · exact absurd hempty h.key_ne_nil
    · split
      · rfl
      · rename_i hmissing
        exact absurd hkey hmissing

theorem define_eq_ok_iff :
    define columns key = .ok schema ↔ schema.columns = columns ∧ schema.key = key := by
  refine ⟨columns_key_of_define, ?_⟩
  rintro ⟨rfl, rfl⟩
  exact schema.wellFormed.define_eq

theorem error_define {fault : Fault} (h : define columns key = .error fault) :
    ∃ cause, fault = .definition cause := by
  dsimp only [define] at h
  split at h
  · cases h
    exact ⟨_, rfl⟩
  · split_ifs at h
    · cases h
      exact ⟨_, rfl⟩
    · split at h
      · cases h
      · cases h
        exact ⟨_, rfl⟩

/-- The outcome that columns and a key ask for: the schema that they make, or a fault of definition
if they make none. -/
def Decides (columns : List Column) (key : List String) : Except Fault Schema → Prop
  | .ok schema => WellFormed columns key ∧ schema.columns = columns ∧ schema.key = key
  | .error fault => ¬WellFormed columns key ∧ ∃ cause, fault = .definition cause

theorem decides_define (columns : List Column) (key : List String) :
    Decides columns key (define columns key) := by
  cases h : define columns key with
  | ok schema =>
    obtain ⟨rfl, rfl⟩ := define_eq_ok_iff.1 h
    exact ⟨schema.wellFormed, rfl, rfl⟩
  | error fault =>
    refine ⟨fun hformed => ?_, error_define h⟩
    rw [hformed.define_eq] at h
    cases h

theorem declare_columns (columns : List Column) (key : KeySource) :
    declare (columns.map .column) key = define columns key.attributes := by
  have haccepted : (columns.map ColumnSource.column).mapM Column.declare = .ok columns := by
    rw [List.mapM_map]
    exact (List.mapM_pure (m := Except Fault) (f := id)).trans (by rw [List.map_id]; rfl)
  rw [declare, haccepted]
  rfl

theorem ofRecord_toRecord (schema : Schema) : ofRecord schema.toRecord = .ok schema :=
  define_eq_ok_iff.2 ⟨rfl, rfl⟩

/-! ## Positions -/

theorem length_attributes (schema : Schema) : schema.attributes.length = schema.arity :=
  List.length_map _

theorem position?_eq_some_iff {name : String} {i : Nat} :
    schema.position? name = some i ↔ schema.attributes[i]? = some name := by
  unfold position?
  constructor
  · intro h
    obtain ⟨hlt, heq, -⟩ := List.idxOf?_eq_some_iff.1 h
    exact List.getElem?_eq_some_iff.2 ⟨hlt, heq⟩
  · intro h
    obtain ⟨hlt, rfl⟩ := List.getElem?_eq_some_iff.1 h
    refine List.idxOf?_eq_some_iff.2 ⟨hlt, rfl, fun j hj heq => ?_⟩
    have hsame := (schema.names_nodup.getElem_inj_iff).1 heq
    omega

theorem position?_of_getElem? {i : Nat} {column : Column} (h : schema.columns[i]? = some column) :
    schema.position? column.name = some i := by
  rw [position?_eq_some_iff, attributes, List.getElem?_map, h]
  rfl

theorem position?_eq_none_iff {name : String} :
    schema.position? name = none ↔ name ∉ schema.attributes :=
  List.idxOf?_eq_none_iff

theorem position?_of_mem {name : String} (hname : name ∈ schema.attributes) :
    schema.position? name = some (schema.attributes.idxOf name) :=
  position?_eq_some_iff.2 (List.getElem?_idxOf hname)

/-- The positions that a schema answers are those at which its names stand. -/
structure Located (schema : Schema) : Prop where
  present : ∀ i (hi : i < schema.attributes.length),
    schema.position? schema.attributes[i] = some i
  absent : ∀ name, name ∉ schema.attributes → schema.position? name = none
  key : schema.keyPositions.map some = schema.key.map schema.position?

theorem located (schema : Schema) : schema.Located where
  present _ hi := position?_eq_some_iff.2 (List.getElem?_eq_getElem hi)
  absent _ := position?_eq_none_iff.2
  key := by
    unfold keyPositions
    rw [List.map_map]
    refine List.map_congr_left fun name hname => ?_
    exact (position?_of_mem (schema.key_subset name hname)).symm

theorem keyPositions_lt {i : Nat} (hi : i ∈ schema.keyPositions) : i < schema.arity := by
  obtain ⟨name, hname, rfl⟩ := List.mem_map.1 hi
  have hlt := List.idxOf_lt_length_iff.2 (schema.key_subset name hname)
  simpa [arity, attributes] using hlt

theorem keyPositions_ne_nil (schema : Schema) : schema.keyPositions ≠ [] := by
  simpa [keyPositions] using schema.key_ne_nil

theorem map_position?_names {positions : List Nat} (hlt : ∀ i ∈ positions, i < schema.arity) :
    (positions.filterMap fun i => schema.attributes[i]?).map schema.position? =
      positions.map some := by
  induction positions with
  | nil => rfl
  | cons i positions ih =>
    obtain ⟨hi, hrest⟩ := List.forall_mem_cons.1 hlt
    have hlength : i < schema.attributes.length := schema.length_attributes ▸ hi
    have hname : schema.attributes[i]? = some schema.attributes[i] :=
      List.getElem?_eq_getElem hlength
    rw [List.filterMap_cons_some hname, List.map_cons, List.map_cons, ih hrest,
      position?_eq_some_iff.2 hname]

/-- A key that is named by positions has these positions. -/
theorem keyPositions_eq_of_key {positions : List Nat} (hlt : ∀ i ∈ positions, i < schema.arity)
    (hkey : schema.key = positions.filterMap fun i => schema.attributes[i]?) :
    schema.keyPositions = positions := by
  have hsame := schema.located.key
  rw [hkey, map_position?_names hlt] at hsame
  exact List.map_injective_iff.2 (Option.some_injective Nat) hsame

/-- The outcome of looking several names up: a position for each, or all those that no column has. -/
def Resolves (schema : Schema) (names : List String) : Except Fault (List Nat) → Prop
  | .ok positions =>
    (∀ name ∈ names, name ∈ schema.attributes) ∧
      positions.map some = names.map schema.position?
  | .error fault =>
    (∃ name ∈ names, name ∉ schema.attributes) ∧
      fault = .unresolved (names.filter (· ∉ schema.attributes)) schema.attributes

theorem resolves_positions (schema : Schema) (names : List String) :
    schema.Resolves names (schema.positions names) := by
  have habsent : names.filter (!schema.has ·) = names.filter (· ∉ schema.attributes) :=
    List.filter_congr fun name _ => by simp [has]
  unfold positions
  rw [habsent]
  split
  · rename_i hnone
    have hall : ∀ name ∈ names, name ∈ schema.attributes := by
      intro name hname
      have hpresent := List.filter_eq_nil_iff.1 hnone name hname
      simpa using hpresent
    refine ⟨hall, ?_⟩
    rw [List.map_map]
    exact List.map_congr_left fun name hname => (position?_of_mem (hall name hname)).symm
  · rename_i hsome
    obtain ⟨name, hname⟩ := List.exists_mem_of_ne_nil _ hsome
    obtain ⟨hmem, habsent⟩ := List.mem_filter.1 hname
    exact ⟨⟨name, hmem, by simpa using habsent⟩, rfl⟩

theorem positions_eq_ok_iff {names : List String} {positions : List Nat} :
    schema.positions names = .ok positions ↔
      (∀ name ∈ names, name ∈ schema.attributes) ∧
        positions = names.map fun name => schema.attributes.idxOf name := by
  have hnone : names.filter (!schema.has ·) = [] ↔ ∀ name ∈ names, name ∈ schema.attributes := by
    simp [List.filter_eq_nil_iff, has]
  unfold Schema.positions
  rw [← hnone]
  split
  · rename_i hmissing
    rw [and_iff_right hmissing, Except.ok.injEq, eq_comm]
  · rename_i hmissing
    exact iff_of_false nofun fun h => hmissing h.1

theorem names_of_positions {names : List String} {positions : List Nat}
    (h : schema.positions names = .ok positions) :
    positions.filterMap (fun i => schema.attributes[i]?) = names := by
  have hresolves := schema.resolves_positions names
  rw [h] at hresolves
  obtain ⟨-, hfound⟩ := hresolves
  clear h
  induction positions generalizing names with
  | nil => exact (List.map_eq_nil_iff.1 hfound.symm).symm
  | cons i positions ih =>
    cases names with
    | nil => cases hfound
    | cons name names =>
      obtain ⟨hhead, hrest⟩ := List.cons.inj hfound
      rw [List.filterMap_cons_some (position?_eq_some_iff.1 hhead.symm), ih hrest]

end Schema

end KeyedRelations
