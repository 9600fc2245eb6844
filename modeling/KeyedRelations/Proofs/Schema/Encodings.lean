import KeyedRelations.Proofs.MsgPack.Records
import KeyedRelations.Proofs.Relation.Scans
import KeyedRelations.Proofs.Schema.Definition
import KeyedRelations.Proofs.Text.Words

/-!
# Encodings of schemas

A schema can be given away as a record, as the plain form of the record, as a document and as three
texts. Each of them is accepted as the schema that it has come from, as long as its lists and names are
not too long for a document and its names are words.
-/

namespace KeyedRelations

/-! ## Plain forms -/

namespace Value

theorem simplifiedAll_map {α : Type} {f : α → Value} (h : ∀ a, (f a).simplified = .ok (f a))
    (as : List α) : simplifiedAll (as.map f) = .ok (as.map f) := by
  induction as with
  | nil => rfl
  | cons a as ih =>
    rw [List.map_cons, simplifiedAll, h a, ih]
    rfl

theorem integersAll_map {α : Type} {f : α → Value} (h : ∀ a, (f a).integers = []) (as : List α) :
    integersAll (as.map f) = [] := by
  induction as with
  | nil => rfl
  | cons a as ih => rw [List.map_cons, integersAll, h a, ih, List.append_nil]

end Value

theorem mapM_map_eq_some {α β : Type} {f : α → β} {g : β → Option α} (h : ∀ a, g (f a) = some a)
    (as : List α) : (as.map f).mapM g = some as := by
  induction as with
  | nil => rfl
  | cons a as ih =>
    rw [List.map_cons, List.mapM_cons, h a, ih]
    rfl

theorem Column.ofRecord?_record (c : Column) : Recordable.ofRecord? (Recordable.record c) = some c := by
  obtain ⟨name, domain⟩ := c
  cases domain <;> rfl

namespace SchemaRecord

variable (s : SchemaRecord)

/-- There are only texts in a record of a schema, which is therefore plain as it is. -/
theorem plainRecord_eq : Recordable.plainRecord s = .ok (Recordable.record s) := by
  have hcolumn (c : Column) : (Recordable.record c).simplified = .ok (Recordable.record c) := rfl
  have hname (name : String) : (Value.text name).simplified = .ok (.text name) := rfl
  change (recordOf _).simplified = .ok (recordOf _)
  simp only [recordOf, List.map_cons, List.map_nil, Value.simplified, Value.simplifiedEntries,
    Value.simplifiedAll_map hcolumn, Value.simplifiedAll_map hname]
  rfl

theorem ofRecord?_record : Recordable.ofRecord? (Recordable.record s) = some s := by
  have hname (name : String) : (Value.text name).text? = some name := rfl
  have hkey := mapM_map_eq_some hname s.key
  have hread : Recordable.ofRecord? (Recordable.record s) =
      ((s.columns.map Recordable.record).mapM Recordable.ofRecord?).bind fun columns =>
        ((s.key.map Value.text).mapM Value.text?).bind fun key => some (⟨columns, key⟩ : SchemaRecord) :=
    rfl
  rw [hread, mapM_map_eq_some Column.ofRecord?_record, hkey]
  rfl

/-! ## Documents -/

variable (room : MsgPack.Room)

/-- A schema has a document just if its lists and texts are not too long for it. -/
theorem exists_encode_iff : (∃ bytes, Recordable.encode room s = .ok bytes) ↔ s.Short := by
  constructor
  · rintro ⟨bytes, hbytes⟩
    exact short_of_encode hbytes
  · intro hshort
    have hcolumn (c : Column) : (Recordable.record c).integers = [] := rfl
    have hname (name : String) : (Value.text name).integers = [] := rfl
    have hwhole : ¬(Recordable.record s).Overflows := by
      change ¬(recordOf _).Overflows
      simp [Value.Overflows, recordOf, Value.integers, Value.integersIn,
        Value.integersAll_map hcolumn, Value.integersAll_map hname]
    exact (MsgPack.written_encode (writable_schema hshort) room.writing).exists_ok hwhole
      (not_steep (levels_schema s)).1

theorem decode_eq {bytes : MsgPack.Bytes} (h : Recordable.encode room s = .ok bytes) :
    Recordable.decode SchemaRecord room bytes = .ok s :=
  MsgPack.decode_encode (stands_schema _ s) h not_false

end SchemaRecord

/-! ## Texts -/

namespace Domain

theorem ofName_label (d : Domain) : ofName d.label = .ok d := by
  have hfound : ofName? d.label = some d := by
    cases d <;> decide +kernel
  rw [ofName, hfound]

theorem isWord_label (d : Domain) : Text.IsWord d.label := by
  cases d <;> decide +kernel

end Domain

namespace Schema

variable (schema : Schema)

theorem accept_record : accept (.record schema.toRecord) = .ok schema := schema.ofRecord_toRecord

theorem accept_plain : accept (.value (Recordable.record schema.toRecord)) = .ok schema := by
  have hrecord : Recordable.accept SchemaRecord (Recordable.record schema.toRecord) =
      .ok schema.toRecord := by
    rw [Recordable.accept, schema.toRecord.ofRecord?_record]
  have haccept : accept (.value (Recordable.record schema.toRecord)) =
      Recordable.accept SchemaRecord (Recordable.record schema.toRecord) >>= ofRecord := rfl
  rw [haccept, hrecord]
  exact schema.ofRecord_toRecord

/-- Texts of the names, of the labels of the domains and of the key declare the schema again. -/
theorem ofWords_intercalate (hnames : ∀ name ∈ schema.attributes, Text.IsWord name) :
    ofWords (" ".intercalate schema.attributes) (" ".intercalate (schema.domains.map (·.label)))
      (" ".intercalate schema.key) = .ok schema := by
  have hlabels : ∀ label ∈ schema.domains.map (·.label), Text.IsWord label := by
    intro label hlabel
    obtain ⟨d, -, rfl⟩ := List.mem_map.1 hlabel
    exact d.isWord_label
  have hkey : ∀ name ∈ schema.key, Text.IsWord name := fun name hname =>
    hnames name (schema.key_subset name hname)
  have hpairs : schema.attributes.zip (schema.domains.map (·.label)) =
      schema.columns.map fun c => (c.name, c.domain.label) := by
    unfold attributes domains
    rw [List.map_map, List.zip_map']
    rfl
  have hlength : schema.attributes.length = (schema.domains.map (·.label)).length := by
    simp [attributes, domains]
  unfold ofWords
  rw [Text.words_intercalate hnames, Text.words_intercalate hlabels, Text.words_intercalate hkey]
  dsimp only
  rw [if_neg (not_not.2 hlength), hpairs, List.mapM_map]
  refine (congrArg (· >>= fun columns => define columns schema.key)
    (mapM_eq_ok (g := id) fun c _ => ?_)).trans ?_
  · simp only [Function.comp_apply, Domain.ofName_label]
    rfl
  · rw [List.map_id]
    exact schema.wellFormed.define_eq

/-- Whatever a schema is, its record and the plain form of the record are accepted as the schema. It has
a document just if its lists and texts are not too long for one, and then what is read from the document
is accepted as the schema too. If its names are words, the three texts declare it again. -/
theorem encodings_roundTrip (room : MsgPack.Room) :
    accept (.record schema.toRecord) = .ok schema ∧
    (∃ v, Recordable.plainRecord schema.toRecord = .ok v ∧ accept (.value v) = .ok schema) ∧
    (schema.toRecord.Short ↔ ∃ bytes r, Recordable.encode room schema.toRecord = .ok bytes ∧
      Recordable.decode SchemaRecord room bytes = .ok r ∧ accept (.record r) = .ok schema) ∧
    ((∀ name ∈ schema.attributes, Text.IsWord name) →
      ofWords (" ".intercalate schema.attributes) (" ".intercalate (schema.domains.map (·.label)))
        (" ".intercalate schema.key) = .ok schema) := by
  refine ⟨schema.accept_record, ⟨_, schema.toRecord.plainRecord_eq, schema.accept_plain⟩, ?_,
    schema.ofWords_intercalate⟩
  constructor
  · intro hshort
    obtain ⟨bytes, hbytes⟩ := (schema.toRecord.exists_encode_iff room).2 hshort
    exact ⟨bytes, _, hbytes, schema.toRecord.decode_eq room hbytes, schema.accept_record⟩
  · rintro ⟨bytes, r, hbytes, -, -⟩
    exact (schema.toRecord.exists_encode_iff room).1 ⟨bytes, hbytes⟩

/-- A schema with all domains and a key out of order. -/
def eachDomain : Schema where
  columns := [⟨"a", .integer64⟩, ⟨"b", .integer32⟩, ⟨"c", .integer16⟩, ⟨"d", .integer8⟩,
    ⟨"é", .float64⟩, ⟨"x.y", .float32⟩, ⟨"k", .character⟩, ⟨"s", .string⟩]
  key := ["s", "é", "a"]
  names_nodup := by decide
  key_ne_nil := by decide
  key_subset := by decide

theorem encodings_roundTrip_each_domain :
    ofWords "a b c d é x.y k s"
        "Integer64 Integer32 Integer16 Integer8 Float64 Float32 Character String" "s é a" =
      .ok eachDomain ∧
    ∃ bytes r, Recordable.encode ⟨4, 0, le_rfl⟩ eachDomain.toRecord = .ok bytes ∧
      Recordable.decode SchemaRecord ⟨4, 0, le_rfl⟩ bytes = .ok r ∧
      accept (.record r) = .ok eachDomain := by
  obtain ⟨-, -, hdocument, hwords⟩ := encodings_roundTrip eachDomain ⟨4, 0, le_rfl⟩
  constructor
  · exact hwords (by decide +kernel)
  · exact hdocument.1 ⟨by decide, by decide +kernel, by decide, by decide +kernel⟩

/-! ## A name that is too long -/

/-- A character takes at least one byte. -/
theorem length_le_textBytes (cs : List Char) :
    cs.length ≤ (MsgPack.textBytes (String.ofList cs)).length := by
  have hsize : (MsgPack.textBytes (String.ofList cs)).length = String.utf8Len cs := by
    rw [← String.utf8ByteSize_ofList, ← String.size_toByteArray]
    unfold MsgPack.textBytes String.toUTF8
    exact Array.length_toList
  rw [hsize]
  clear hsize
  induction cs with
  | nil => exact Nat.zero_le _
  | cons c cs ih =>
    have hc := c.utf8Size_pos
    rw [List.length_cons, String.utf8Len_cons]
    omega

/-- The schema of one column, which is the key. -/
def ofColumn (c : Column) : Schema where
  columns := [c]
  key := [c.name]
  names_nodup := List.nodup_singleton _
  key_ne_nil := List.cons_ne_nil _ _
  key_subset := fun _ hk => hk

theorem shortText_of_encode_ofColumn {c : Column} {room : MsgPack.Room} {bytes : MsgPack.Bytes}
    (h : Recordable.encode room (ofColumn c).toRecord = .ok bytes) : MsgPack.ShortText c.name :=
  (((ofColumn c).toRecord.exists_encode_iff room).1 ⟨bytes, h⟩).names c List.mem_cons_self

/-- A name with as many characters as the head of a text cannot count any more. -/
def longName : String := String.ofList (List.replicate 0x100000000 'a')

theorem longName_not_encoded :
    ¬∃ room bytes, Recordable.encode room (ofColumn ⟨longName, .integer64⟩).toRecord = .ok bytes := by
  rintro ⟨room, bytes, hbytes⟩
  have hshort := shortText_of_encode_ofColumn hbytes
  have hlength := length_le_textBytes (List.replicate 0x100000000 'a')
  rw [List.length_replicate] at hlength
  exact Nat.not_lt.2 hlength hshort

end Schema

end KeyedRelations
