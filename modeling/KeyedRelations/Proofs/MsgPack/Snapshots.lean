import KeyedRelations.Proofs.MsgPack.Values
import KeyedRelations.Proofs.Relation.Rows

/-!
# Documents of snapshots

What is written of columns, schemas and snapshots has no text and no list that is too long for its
head, and stands for them. The rows of a snapshot keep the kinds of their values.
-/

namespace KeyedRelations

open MsgPack

instance (s : String) : Decidable (ShortText s) := inferInstanceAs (Decidable (_ < _))

/-- Whether the heads of a document can hold the lengths of the lists and texts in a schema. -/
structure SchemaRecord.Short (s : SchemaRecord) : Prop where
  columns : s.columns.length < 0x100000000
  names : ∀ c ∈ s.columns, ShortText c.name
  key : s.key.length < 0x100000000
  keyNames : ∀ name ∈ s.key, ShortText name

/-- Whether the heads of a document can hold the lengths of the lists and texts in a snapshot. -/
structure Snapshot.Short (s : Snapshot) : Prop where
  name : ShortText s.name
  schema : s.schema.Short
  rows : s.rows.length < 0x100000000
  texts : ∀ row ∈ s.rows, ∀ text, .text text ∈ row.values → ShortText text

/-! ## What has a document -/

namespace MsgPack

variable {levels : Nat} {bytes : Bytes}

theorem exists_encode_of_mem {vs : List Value} (h : encodeAll levels vs = .ok bytes) {v : Value}
    (hv : v ∈ vs) : ∃ below bytes, encode below v = .ok bytes := by
  induction vs generalizing bytes with
  | nil => exact absurd hv List.not_mem_nil
  | cons first rest ih =>
    obtain ⟨below, start, others, hfirst, hrest, -⟩ := exists_of_encodeAll_cons h
    rcases List.mem_cons.1 hv with rfl | hv
    · exact ⟨below, start, hfirst⟩
    · exact ih hrest hv

theorem length_of_encode {v : Value} {vs : List Value} (hv : v = .list vs ∨ v = .tuple vs)
    (h : encode levels v = .ok bytes) :
    vs.length < 0x100000000 ∧ ∀ v ∈ vs, ∃ below bytes, encode below v = .ok bytes := by
  have hitems : ((do
      checkLength vs.length
      return arrayHead vs.length ++ (← encodeAll levels vs)) : Except Fault Bytes) = .ok bytes := by
    rcases hv with rfl | rfl
    · rwa [encode] at h
    · rwa [encode] at h
  obtain ⟨hlength, items, hitems, -⟩ := exists_of_sized hitems
  exact ⟨hlength, fun v hv => exists_encode_of_mem hitems hv⟩

theorem exists_encode_of_entry {entries : List (Value × Value)}
    (h : encodeEntries levels entries = .ok bytes) {entry : Value × Value}
    (hentry : entry ∈ entries) : ∃ below bytes, encode below entry.2 = .ok bytes := by
  induction entries generalizing bytes with
  | nil => exact absurd hentry List.not_mem_nil
  | cons first rest ih =>
    obtain ⟨k, v⟩ := first
    obtain ⟨below, _, start, others, -, hfirst, hrest, -⟩ := exists_of_encodeEntries_cons h
    rcases List.mem_cons.1 hentry with rfl | hentry
    · exact ⟨below, start, hfirst⟩
    · exact ih hrest hentry

theorem exists_encode_of_field {fields : List (String × Value)}
    (h : encode levels (recordOf fields) = .ok bytes) {field : String × Value}
    (hfield : field ∈ fields) : ∃ below bytes, encode below field.2 = .ok bytes := by
  rw [recordOf, encode] at h
  obtain ⟨⟨⟩, -, h⟩ := exists_of_bind_eq_ok h
  obtain ⟨_, hentries, -⟩ := exists_of_bind_eq_ok h
  exact exists_encode_of_entry hentries (List.mem_map_of_mem hfield)

end MsgPack

theorem Column.short_of_encode {c : Column} {levels : Nat} {bytes : Bytes}
    (h : MsgPack.encode levels (Recordable.record c) = .ok bytes) : ShortText c.name := by
  have hfields : MsgPack.encode levels
      (recordOf [("name", .text c.name), ("domain", .text c.domain.tag)]) = .ok bytes := h
  obtain ⟨_, _, hname⟩ := exists_encode_of_field hfields List.mem_cons_self
  exact (encode_text_eq_ok hname).1

theorem SchemaRecord.short_of_encode {s : SchemaRecord} {levels : Nat} {bytes : Bytes}
    (h : MsgPack.encode levels (Recordable.record s) = .ok bytes) : s.Short := by
  have hfields : MsgPack.encode levels (recordOf
      [("columns", .list (s.columns.map Recordable.record)), ("key", .list (s.key.map .text))]) =
        .ok bytes := h
  obtain ⟨_, _, hcolumns⟩ := exists_encode_of_field hfields List.mem_cons_self
  obtain ⟨_, _, hkey⟩ := exists_encode_of_field hfields (List.mem_cons_of_mem _ List.mem_cons_self)
  obtain ⟨hcolumnsLength, hcolumns⟩ := length_of_encode (.inl rfl) hcolumns
  obtain ⟨hkeyLength, hkey⟩ := length_of_encode (.inl rfl) hkey
  rw [List.length_map] at hcolumnsLength hkeyLength
  refine ⟨hcolumnsLength, fun c hc => ?_, hkeyLength, fun name hname => ?_⟩
  · obtain ⟨_, _, hcolumn⟩ := hcolumns _ (List.mem_map_of_mem hc)
    exact Column.short_of_encode hcolumn
  · obtain ⟨_, _, htext⟩ := hkey _ (List.mem_map_of_mem hname)
    exact (encode_text_eq_ok htext).1

/-- A snapshot that has a document at all has no text and no list that is too long for its head. -/
theorem Snapshot.short_of_encode {s : Snapshot} {domains : List Domain} {room : Room}
    {bytes : Bytes} (hfit : ∀ row ∈ s.rows, row.Fits domains)
    (h : Recordable.encode room s = .ok bytes) : s.Short := by
  have hfields : MsgPack.encode room.writing (recordOf
      [("name", .text s.name), ("schema", Recordable.record s.schema),
        ("rows", .list (s.rows.map Row.toValue))]) = .ok bytes := h
  obtain ⟨_, _, hname⟩ := exists_encode_of_field hfields List.mem_cons_self
  obtain ⟨_, _, hschema⟩ := exists_encode_of_field hfields (List.mem_cons_of_mem _ List.mem_cons_self)
  obtain ⟨_, _, hrows⟩ := exists_encode_of_field hfields
    (List.mem_cons_of_mem _ (List.mem_cons_of_mem _ List.mem_cons_self))
  obtain ⟨hlength, hrows⟩ := length_of_encode (.inl rfl) hrows
  rw [List.length_map] at hlength
  refine ⟨(encode_text_eq_ok hname).1, SchemaRecord.short_of_encode hschema, hlength, ?_⟩
  intro row hrow text htext
  obtain ⟨values, rfl, -⟩ := hfit row hrow
  obtain ⟨_, _, hrow⟩ := hrows _ (List.mem_map_of_mem hrow)
  obtain ⟨-, hvalues⟩ := length_of_encode (.inr rfl) hrow
  obtain ⟨_, _, htext⟩ := hvalues _ htext
  exact (encode_text_eq_ok htext).1

/-! ## What documents stand for -/

variable {levels : Nat}

theorem Domain.ofTag?_tag (d : Domain) : ofTag? d.tag = some d := by
  cases d <;> rfl

theorem Domain.shortText_tag (d : Domain) : ShortText d.tag := by
  cases d <;> decide +kernel

theorem stands_column (levels : Nat) (c : Column) :
    Stands False (Recordable.record c) (Recordable.read levels) c := by
  have hdeep : (False ∨ False ∨ False) ↔ False := by simp only [or_false]
  refine Stands.congr hdeep (stands_record (some c.name, some c.domain) ?_ rfl)
  refine .cons rfl ((stands_text c.name).map _) ?_
  exact .cons rfl ((stands_word c.domain.ofTag?_tag).map _) fieldsStand_nil

theorem stands_schema (levels : Nat) (s : SchemaRecord) :
    Stands False (Recordable.record s) (Recordable.read levels) s := by
  have hcolumns := (stands_list fun c (_ : c ∈ s.columns) => stands_column levels c).1.map
    fun columns => (some columns, (none : Option (List String)))
  have hkey := (stands_list fun name (_ : name ∈ s.key) => stands_text name).1.map
    fun key => (some s.columns, some key)
  rw [List.map_id'] at hcolumns hkey
  have hdeep : ((∃ c ∈ s.columns, False) ∨ (∃ name ∈ s.key, False) ∨ False) ↔ False := by simp
  refine Stands.congr hdeep (stands_record (some s.columns, some s.key) ?_ rfl)
  exact .cons rfl hcolumns (.cons rfl hkey fieldsStand_nil)

/-- The values of a row or a key, which reading puts into one list. -/
theorem stands_values (levels : Nat) {values : List Value} (hvalues : ∀ v ∈ values, v.Plain) :
    Stands (∃ v ∈ values, levels + 1 < v.levels) (.list values)
        (Reader.list (Reader.value levels)) (Value.unmarkedAll values) ∧
      Stands (∃ v ∈ values, levels + 1 < v.levels) (.tuple values)
        (Reader.list (Reader.value levels)) (Value.unmarkedAll values) := by
  have hlist := stands_list fun v hv => stands_value (hvalues v hv) (levels + 1)
  rw [List.map_id', ← Value.unmarkedAll_eq_map] at hlist
  exact hlist

/-- The row without marks. -/
def Row.unmarked : Row → Row
  | .tuple values => .tuple (Value.unmarkedAll values)
  | .text s => .text s

namespace Snapshot

/-- Whether the rows of a snapshot are tuples of plain values, with no length in the snapshot that is
too large for its head. -/
structure Plain (s : Snapshot) : Prop where
  name : ShortText s.name
  schema : s.schema.Short
  length : s.rows.length < 0x100000000
  rows : ∀ row ∈ s.rows, ∃ values, row = .tuple values ∧ values.length < 0x100000000 ∧
    ∀ v ∈ values, v.Plain

/-- Whether some value of a snapshot has too many levels for a reader with room for so many. -/
def Deep (levels : Nat) (s : Snapshot) : Prop :=
  ∃ row ∈ s.rows, ∃ v ∈ row.values, levels + 1 < v.levels

/-- The snapshot without marks. -/
def unmarked (s : Snapshot) : Snapshot := { s with rows := s.rows.map Row.unmarked }

end Snapshot

theorem stands_snapshot {s : Snapshot} (hs : s.Plain) :
    Stands (s.Deep levels) (Recordable.record s) (Recordable.read levels) s.unmarked := by
  have hrow : ∀ row ∈ s.rows, Stands (∃ v ∈ row.values, levels + 1 < v.levels) row.toValue
      (Reader.list (Reader.value levels)) (Value.unmarkedAll row.values) := by
    intro row hrow
    obtain ⟨values, rfl, -, hvalues⟩ := hs.rows row hrow
    exact (stands_values levels hvalues).2
  have hback : (s.rows.map fun row => Value.unmarkedAll row.values).map Row.tuple =
      s.rows.map Row.unmarked := by
    rw [List.map_map]
    refine List.map_congr_left fun row hrow => ?_
    obtain ⟨values, rfl, -⟩ := hs.rows row hrow
    rfl
  have hrows := (stands_list hrow).1.map fun rows =>
    (some s.name, some s.schema, some (rows.map Row.tuple))
  rw [hback] at hrows
  have hdeep : (False ∨ False ∨ s.Deep levels ∨ False) ↔ s.Deep levels := by simp only [false_or, or_false]
  refine Stands.congr hdeep (stands_record
    (some s.name, some s.schema, some (s.rows.map Row.unmarked)) ?_ rfl)
  refine .cons rfl ((stands_text s.name).map _) ?_
  exact .cons rfl ((stands_schema levels s.schema).map _) (.cons rfl hrows fieldsStand_nil)

/-! ## Rows that fit -/

/-- A value that a domain accepts is a scalar without a mark. -/
theorem Domain.Holding.scalar {d : Domain} {v : Value} (hv : d.Holding v)
    (hshort : ∀ s, v = .text s → ShortText s) : v.Scalar ∧ v.unmarked = v := by
  cases hv with
  | whole _ _ _ => exact ⟨.int _, rfl⟩
  | double => exact ⟨.float _, rfl⟩
  | text => exact ⟨.text (hshort _ rfl), rfl⟩

/-- A snapshot whose rows fit is read back as it was, whatever the domains are. -/
theorem stands_fitting {s : Snapshot} {domains : List Domain}
    (hrows : ∀ row ∈ s.rows, row.Fits domains) (hlength : domains.length < 0x100000000)
    (hs : s.Short) : Stands False (Recordable.record s) (Recordable.read levels) s := by
  have hrow : ∀ row ∈ s.rows, ∃ values, row = .tuple values ∧ values.length = domains.length ∧
      ∀ v ∈ values, v.Scalar ∧ v.unmarked = v := by
    intro row hrow
    obtain ⟨values, rfl, hfit⟩ := hrows row hrow
    refine ⟨values, rfl, hfit.length_eq.symm, fun v hv => ?_⟩
    obtain ⟨i, hi, rfl⟩ := List.getElem_of_mem hv
    refine (hfit.typed.get (hfit.length_eq.symm ▸ hi) hi).scalar fun text heq => ?_
    exact hs.texts _ hrow text (heq ▸ hv)
  have hplain : s.Plain := by
    refine ⟨hs.name, hs.schema, hs.rows, fun row hmem => ?_⟩
    obtain ⟨values, rfl, heq, hvalues⟩ := hrow row hmem
    exact ⟨values, rfl, heq ▸ hlength, fun v hv => .scalar (hvalues v hv).1⟩
  have hshallow : s.Deep levels ↔ False := by
    refine iff_false_intro ?_
    rintro ⟨row, hmem, v, hv, hlevels⟩
    obtain ⟨values, rfl, -, hvalues⟩ := hrow row hmem
    rw [(hvalues v hv).1.levels_eq] at hlevels
    omega
  have hunmarked : s.unmarked = s := by
    have hmap : s.rows.map Row.unmarked = s.rows := by
      refine (List.map_congr_left fun row hmem => ?_).trans (List.map_id s.rows)
      obtain ⟨values, rfl, -, hvalues⟩ := hrow row hmem
      have hvalues' := (List.map_congr_left fun v hv => (hvalues v hv).2).trans (List.map_id values)
      rw [Row.unmarked, Value.unmarkedAll_eq_map, hvalues']
      rfl
    rw [Snapshot.unmarked, hmap]
  have hstands := (stands_snapshot hplain).congr hshallow
  rwa [hunmarked] at hstands

end KeyedRelations
