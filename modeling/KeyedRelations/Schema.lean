import KeyedRelations.Key
import KeyedRelations.Text.Blank

/-!
# Schemas

A schema lists the columns of a table and names those that make up its key. Column names are
distinct, and the key is a non-empty list of column names: these facts are part of the type, and
`Schema.define` is where they are checked.
-/

namespace KeyedRelations

/-- A named column of one domain. -/
structure Column where
  name : String
  domain : Domain
  deriving DecidableEq

/-- The columns of a table and the attributes of its key, in order. -/
structure Schema where
  columns : List Column
  key : List String
  names_nodup : (columns.map (·.name)).Nodup
  key_ne_nil : key ≠ []
  key_subset : ∀ k ∈ key, k ∈ columns.map (·.name)
  deriving DecidableEq

/-- The first name that has occurred before, after those in `seen`. -/
def firstRepeated? (seen : List String) : List String → Option String
  | [] => none
  | name :: rest => if seen.contains name then some name else firstRepeated? (name :: seen) rest

theorem nodup_of_firstRepeated?_eq_none {seen names : List String}
    (h : firstRepeated? seen names = none) :
    names.Nodup ∧ ∀ name ∈ names, name ∉ seen := by
  induction names generalizing seen with
  | nil => simp
  | cons name rest ih =>
    rw [firstRepeated?] at h
    split at h
    · contradiction
    · rename_i hname
      obtain ⟨hnodup, hseen⟩ := ih h
      refine ⟨List.nodup_cons.2 ⟨fun hmem => ?_, hnodup⟩, fun other hother => ?_⟩
      · exact hseen name hmem List.mem_cons_self
      · rcases List.mem_cons.1 hother with rfl | hrest
        · simpa using hname
        · exact fun hmem => hseen other hrest (List.mem_cons_of_mem _ hmem)

namespace Schema

/-- The schema with the given columns and key, if there is one. -/
def define (columns : List Column) (key : List String) : Except Fault Schema :=
  let names := columns.map (·.name)
  match hnames : firstRepeated? [] names with
  | some name => .error (.definition (.duplicateAttribute name))
  | none =>
    if hkey : key = [] then .error (.definition .emptyKey)
    else
      match hmissing : key.filter (!names.contains ·) with
      | [] =>
        .ok
          { columns, key
            names_nodup := (nodup_of_firstRepeated?_eq_none hnames).1
            key_ne_nil := hkey
            key_subset := by
              intro k hk
              have h := List.filter_eq_nil_iff.1 hmissing k hk
              simpa [names] using h }
      | missing => .error (.definition (.keyOutside missing))

theorem columns_key_of_define {columns : List Column} {key : List String} {schema : Schema}
    (h : define columns key = .ok schema) : schema.columns = columns ∧ schema.key = key := by
  dsimp only [define] at h
  split at h
  · contradiction
  · split at h
    · contradiction
    · split at h
      · cases h
        exact ⟨rfl, rfl⟩
      · contradiction

variable (schema : Schema)

/-- The names of the columns. -/
def attributes : List String := schema.columns.map (·.name)

def domains : List Domain := schema.columns.map (·.domain)

/-- The number of columns. -/
def arity : Nat := schema.columns.length

/-- The position of a column. -/
def position? (name : String) : Option Nat := schema.attributes.idxOf? name

def has (name : String) : Bool := schema.attributes.contains name

/-- The positions of several columns; all names without a column are reported together. -/
def positions (names : List String) : Except Fault (List Nat) :=
  match names.filter (!schema.has ·) with
  | [] => .ok (names.map fun name => schema.attributes.idxOf name)
  | missing => .error (.unresolved missing schema.attributes)

/-- The position and the column of a name. -/
def resolve (name : String) : Except Fault (Nat × Column) :=
  match schema.columns.find? (·.name == name) with
  | some column => .ok (schema.attributes.idxOf name, column)
  | none => .error (.unresolved [name] schema.attributes)

/-- The positions of the key columns, in the order of the key. -/
def keyPositions : List Nat := schema.key.map fun name => schema.attributes.idxOf name

/-- The domains of the key columns, in the order of the key. -/
def keyDomains : List Domain := schema.keyPositions.filterMap fun i => schema.domains[i]?

/-- The key of an accepted row. -/
def keyOf (t : Tuple) : Key := t.pick schema.keyPositions

/-- The key of a row that has not been accepted. -/
def keyOfRow (row : Row) : Except Fault Key := row.pick schema.keyPositions

/-! ## Rows of a schema -/

/-- The first value that its column does not accept. -/
def firstUnfit? (position : Nat) : List Column → Tuple → Option TypeFault
  | column :: columns, v :: values =>
    if column.domain.accepts v then firstUnfit? (position + 1) columns values
    else some (.value position v.shown column.name column.domain)
  | _, _ => none

/-- The row as a tuple, if it has a fitting value for every column. -/
def validate (row : Row) : Except Fault Tuple :=
  let values := row.values
  if values.length ≠ schema.arity then .error (.typing (.valueCount schema.arity values.length))
  else
    match firstUnfit? 0 schema.columns values with
    | some cause => .error (.typing cause)
    | none => .ok values

/-- Whether a row is a row of the schema. -/
def fits (row : Row) : Bool := (schema.validate row).isOk

/-! ## Keys of a schema -/

/-- The first value that its key column does not accept. -/
def firstUnfitKey? (position : Nat) : List Domain → Key → Option TypeFault
  | domain :: domains, v :: values =>
    if domain.accepts v then firstUnfitKey? (position + 1) domains values
    else some (.keyValue position v.shown domain)
  | _, _ => none

/-- The key that a value stands for: a key, a sequence of values, or the single value of a key of
one attribute. -/
def coerceKey (v : Value) : Except Fault Key :=
  let values :=
    match v with
    | .key values | .tuple values | .list values => values
    | v => [v]
  if values.length ≠ schema.keyDomains.length then
    .error (.typing (.keyCount schema.keyDomains.length values.length))
  else
    match firstUnfitKey? 0 schema.keyDomains values with
    | some cause => .error (.typing cause)
    | none => .ok values

/-- Why something that is no value at all, shown as a text, is no key: it counts as one value that
no domain accepts. -/
def notAKey (shown : String) : Fault :=
  match schema.keyDomains with
  | [domain] => .typing (.keyValue 0 shown domain)
  | domains => .typing (.keyCount domains.length 1)

/-! ## Compatibility -/

/-- The first position at which two lists of domains differ. -/
def firstDifferent? (position : Nat) : List Domain → List Domain → Option MismatchFault
  | a :: as, b :: bs =>
    if a = b then firstDifferent? (position + 1) as bs else some (.domain position a b)
  | _, _ => none

/-- Why two schemas do not hold the same rows, if they do not. -/
def mismatch? (other : Schema) : Option MismatchFault :=
  if schema.arity ≠ other.arity then some (.arity schema.arity other.arity)
  else firstDifferent? 0 schema.domains other.domains

/-- Whether two schemas hold the same rows; names and keys do not matter. -/
def compatible (other : Schema) : Bool := (schema.mismatch? other).isNone

def checkCompatible (other : Schema) : Except Fault Unit :=
  match schema.mismatch? other with
  | some cause => .error (.mismatch cause)
  | none => .ok ()

end Schema

end KeyedRelations
