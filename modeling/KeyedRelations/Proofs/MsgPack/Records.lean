import KeyedRelations.Proofs.Condition.Reading
import KeyedRelations.Proofs.MsgPack.Layout
import KeyedRelations.Proofs.MsgPack.Snapshots

/-!
# Records there and back

Columns, schemas, snapshots, keys and comparisons are written unless an integer inside them is too
wide, in the layout of the format, and then read back as they were. The one exception are keys and
rows whose values have more levels than there is room for, be it in writing or in reading.
-/

namespace KeyedRelations

open MsgPack

/-! ## Keys and comparisons -/

/-- Whether a key holds what its type says, with no length too large for its head. -/
structure KeyRecord.Plain (k : KeyRecord) : Prop where
  length : k.values.length < 0x100000000
  values : ∀ v ∈ k.values, v.Plain

/-- Whether some value of a key has too many levels for a reader with room for so many. -/
def KeyRecord.Deep (levels : Nat) (k : KeyRecord) : Prop := ∃ v ∈ k.values, levels + 1 < v.levels

def KeyRecord.unmarked (k : KeyRecord) : KeyRecord := ⟨Value.unmarkedAll k.values⟩

theorem stands_key {levels : Nat} {k : KeyRecord} (hk : k.Plain) :
    Stands (k.Deep levels) (Recordable.record k) (Recordable.read levels) k.unmarked := by
  have hvalues := (stands_values levels hk.values).1.map some
  have hdeep : k.Deep levels ∨ False ↔ k.Deep levels := by simp only [or_false]
  refine Stands.congr hdeep (stands_record (some (Value.unmarkedAll k.values)) ?_ rfl)
  exact .cons rfl hvalues fieldsStand_nil

/-- Whether no text of a comparison is too long for its head. -/
structure Comparison.Short (c : Comparison) : Prop where
  left : ShortText c.left
  right : ∀ name, c.right = .attribute name → ShortText name

theorem Operator.shortText_symbol (op : Operator) : ShortText op.symbol := by
  cases op <;> decide +kernel

theorem stands_operand (x : Operand) : Stands False x.toValue Operand.read x := by
  intro levels bytes h
  obtain name | n := x
  · obtain ⟨hs, rfl⟩ := encode_text_eq_ok h
    have htakes : Operand.read.Takes (encodeText name) (.attribute name) := by
      refine (Reader.takes_textHead hs).bind_pure ?_
      dsimp only
      rw [utf8_textBytes]
      rfl
    exact htakes.reads
  · have htakes : Operand.read.Takes bytes (.literal n) :=
      (Reader.takes_encodeInt h).bind_pure rfl
    exact htakes.reads

theorem stands_comparison (levels : Nat) (c : Comparison) :
    Stands False (Recordable.record c) (Recordable.read levels) c := by
  have hdeep : (False ∨ False ∨ False ∨ False) ↔ False := by simp only [or_false]
  refine Stands.congr hdeep (stands_record (some c.left, some c.operator, some c.right) ?_ rfl)
  refine .cons rfl ((stands_text c.left).map _) ?_
  refine .cons rfl ((stands_word c.operator.ofSymbol?_symbol).map _) ?_
  exact .cons rfl ((stands_operand c.right).map _) fieldsStand_nil

/-! ## What is written -/

theorem writable_text {s : String} (hs : ShortText s) : (Value.text s).Writable :=
  .scalar (.text hs)

theorem writable_record {fields : List (String × Value)} (hlength : fields.length < 0x100000000)
    (hfields : ∀ f ∈ fields, ShortText f.1 ∧ f.2.Writable) : (recordOf fields).Writable := by
  refine .dict (by simpa using hlength) ?_ ?_
  · intro e he
    obtain ⟨f, hf, rfl⟩ := List.mem_map.1 he
    exact .text (hfields f hf).1
  · intro e he
    obtain ⟨f, hf, rfl⟩ := List.mem_map.1 he
    exact (hfields f hf).2

theorem writable_column {c : Column} (hname : ShortText c.name) :
    (Recordable.record c).Writable := by
  refine writable_record (by simp) ?_
  simp only [List.forall_mem_cons, List.not_mem_nil, false_imp_iff, implies_true, and_true]
  exact ⟨⟨by decide +kernel, writable_text hname⟩, by decide +kernel,
    writable_text c.domain.shortText_tag⟩

theorem writable_schema {s : SchemaRecord} (hs : s.Short) : (Recordable.record s).Writable := by
  have hcolumns : (Value.list (s.columns.map Recordable.record)).Writable := by
    refine .list (by simpa using hs.columns) ?_
    simpa using fun c hc => writable_column (hs.names c hc)
  have hkey : (Value.list (s.key.map .text)).Writable := by
    refine .list (by simpa using hs.key) ?_
    simpa using fun name hname => writable_text (hs.keyNames name hname)
  refine writable_record (by simp) ?_
  simp only [List.forall_mem_cons, List.not_mem_nil, false_imp_iff, implies_true, and_true]
  exact ⟨⟨by decide +kernel, hcolumns⟩, by decide +kernel, hkey⟩

theorem writable_snapshot {s : Snapshot} (hs : s.Plain) : (Recordable.record s).Writable := by
  have hrows : (Value.list (s.rows.map Row.toValue)).Writable := by
    refine .list (by simpa using hs.length) fun v hv => ?_
    obtain ⟨row, hrow, rfl⟩ := List.mem_map.1 hv
    obtain ⟨values, rfl, hlength, hvalues⟩ := hs.rows row hrow
    exact .tuple hlength fun v hv => (hvalues v hv).writable
  refine writable_record (by simp) ?_
  simp only [List.forall_mem_cons, List.not_mem_nil, false_imp_iff, implies_true, and_true]
  exact ⟨⟨by decide +kernel, writable_text hs.name⟩,
    ⟨by decide +kernel, writable_schema hs.schema⟩, by decide +kernel, hrows⟩

theorem writable_key {k : KeyRecord} (hk : k.Plain) : (Recordable.record k).Writable := by
  refine writable_record (by simp) ?_
  simp only [List.forall_mem_cons, List.not_mem_nil, false_imp_iff, implies_true, and_true]
  exact ⟨by decide +kernel, .list hk.length fun v hv => (hk.values v hv).writable⟩

theorem writable_comparison {c : Comparison} (hc : c.Short) : (Recordable.record c).Writable := by
  have hright : c.right.toValue.Writable := by
    cases hoperand : c.right with
    | literal n => exact .scalar (.int n)
    | _ name => exact writable_text (hc.right name hoperand)
  refine writable_record (by simp) ?_
  simp only [List.forall_mem_cons, List.not_mem_nil, false_imp_iff, implies_true, and_true]
  exact ⟨⟨by decide +kernel, writable_text hc.left⟩,
    ⟨by decide +kernel, writable_text c.operator.shortText_symbol⟩, by decide +kernel, hright⟩

/-! ## Levels -/

theorem levels_column (c : Column) : (Recordable.record c).levels = 2 := rfl

theorem levels_schema (s : SchemaRecord) : (Recordable.record s).levels ≤ 4 := by
  have hcolumns : Value.levelsAll (s.columns.map Recordable.record) ≤ 2 := by
    by_contra hlt
    obtain ⟨v, hv, hlevels⟩ := Value.lt_levelsAll_iff.1 (Nat.lt_of_not_le hlt)
    obtain ⟨c, -, rfl⟩ := List.mem_map.1 hv
    exact Nat.lt_irrefl 2 hlevels
  have hkey : Value.levelsAll (s.key.map .text) ≤ 1 := by
    by_contra hlt
    obtain ⟨v, hv, hlevels⟩ := Value.lt_levelsAll_iff.1 (Nat.lt_of_not_le hlt)
    obtain ⟨name, -, rfl⟩ := List.mem_map.1 hv
    exact Nat.lt_irrefl 1 hlevels
  have hlevels : (Recordable.record s).levels =
      max (max 1 (Value.levelsAll (s.columns.map Recordable.record) + 1))
        (max (max 1 (Value.levelsAll (s.key.map .text) + 1)) 0) + 1 := rfl
  omega

theorem levels_comparison (c : Comparison) : (Recordable.record c).levels = 2 := by
  obtain ⟨left, op, _ | _⟩ := c <;> rfl

/-! ## There and back -/

/-- Whether a record has more levels than there is room for when it is written. -/
def Steep {α : Type} [Recordable α] (room : Room) (x : α) : Prop :=
  room.writing + 1 < (Recordable.record x).levels

/-- What comes of writing `x` and reading it back, which is to give `y`. An integer that is too wide
keeps it from being written, and so do too many levels (`steep`). Otherwise its document has the layout
of the format and is read back, or is refused if something in it has too many levels for the reader
(`deep`). -/
structure RoundTrips {α : Type} [Recordable α] (room : Room) (steep deep : Prop) (x y : α) :
    Prop where
  overflow : ¬steep → (Recordable.encode room x = .error .integerWidth ↔
    ∃ n ∈ (Recordable.record x).integers, Wide n)
  back : ¬steep → ¬deep → (∀ n ∈ (Recordable.record x).integers, ¬Wide n) →
    ∃ bytes, Recordable.encode room x = .ok bytes ∧ Layout (Recordable.record x) bytes ∧
      Recordable.decode α room bytes = .ok y
  tooSteep : steep → (∀ n ∈ (Recordable.record x).integers, ¬Wide n) →
    Recordable.encode room x = .error .depth
  tooDeep : deep → ∀ bytes, Recordable.encode room x = .ok bytes →
    Recordable.decode α room bytes = .error .nesting

theorem RoundTrips.of_stands {α : Type} [Recordable α] {room : Room} {steep deep : Prop} {x y : α}
    (hwrite : (Recordable.record x).Writable)
    (hread : Stands deep (Recordable.record x) (Recordable.read room.reading) y)
    (hsteep : Steep room x ↔ steep) : RoundTrips room steep deep x y := by
  have hwritten : Written (Recordable.record x).Overflows steep (Recordable.encode room x) :=
    (written_encode hwrite room.writing).congr Iff.rfl hsteep
  have hfits (h : ∀ n ∈ (Recordable.record x).integers, ¬Wide n) :
      ¬(Recordable.record x).Overflows := fun ⟨n, hn, hwide⟩ => h n hn hwide
  refine ⟨hwritten.error_iff, fun hlow hshallow hwide => ?_,
    fun hhigh hwide => hwritten.eq_depth (hfits hwide) hhigh,
    fun hdeep _ hbytes => decode_deep hread hbytes hdeep⟩
  obtain ⟨bytes, hbytes⟩ := hwritten.exists_ok (hfits hwide) hlow
  exact ⟨bytes, hbytes, layout_encode hwrite hbytes, decode_encode hread hbytes hshallow⟩

/-- Records of scalars have room always. -/
theorem not_steep {α : Type} [Recordable α] {room : Room} {x : α}
    (hlevels : (Recordable.record x).levels ≤ 4) : Steep room x ↔ False := by
  have hroom := room.scalars_le
  exact iff_false_intro (Nat.not_lt.2 (by omega))

/-- Records of every kind are read back as they were written, whatever they hold: integers, truth
values and doubles keep their kinds and all their bits. Only marks are not written. Columns, schemas
and comparisons have room always, snapshots and keys as long as their values have not too many
levels. -/
theorem records_roundTrip (room : Room) {c : Column} {s : SchemaRecord} {t : Snapshot}
    {k : KeyRecord} {p : Comparison} (hc : ShortText c.name) (hs : s.Short) (ht : t.Plain)
    (hk : k.Plain) (hp : p.Short) :
    RoundTrips room False False c c ∧ RoundTrips room False False s s ∧
      RoundTrips room (Steep room t) (t.Deep room.reading) t t.unmarked ∧
      RoundTrips room (Steep room k) (k.Deep room.reading) k k.unmarked ∧
      RoundTrips room False False p p :=
  ⟨.of_stands (writable_column hc) (stands_column _ c) (not_steep (by rw [levels_column]; decide)),
    .of_stands (writable_schema hs) (stands_schema _ s) (not_steep (levels_schema s)),
    .of_stands (writable_snapshot ht) (stands_snapshot ht) Iff.rfl,
    .of_stands (writable_key hk) (stands_key hk) Iff.rfl,
    .of_stands (writable_comparison hp) (stands_comparison _ p)
      (not_steep (by rw [levels_comparison]; decide))⟩

def mixedKey : KeyRecord :=
  ⟨[.int 0xffffffffffffffff, .int (-0x21), .bool true, .nan ⟨0x7ff8000000000001⟩ [0], .text "é",
    .bytes [0xff], .dict [(.int 1, .list [.null]), (.text "1", .list [])]]⟩

def mixedSchema : SchemaRecord := ⟨[⟨"é", .float64⟩], ["é"]⟩

/-- Integers at the end of what can be written and beyond it, and values of all other kinds, where
there is room for six levels in a record and for two in a value. -/
theorem records_roundTrip_mixed :
    let room : Room := ⟨6, 2, by decide⟩
    (∃ bytes, Recordable.encode room mixedSchema = .ok bytes ∧
        Recordable.decode SchemaRecord room bytes = .ok mixedSchema) ∧
      (∃ bytes, Recordable.encode room (⟨"t", mixedSchema, [.tuple mixedKey.values]⟩ : Snapshot) =
          .ok bytes ∧
        Recordable.decode Snapshot room bytes =
          .ok ⟨"t", mixedSchema, [.tuple (Value.unmarkedAll mixedKey.values)]⟩) ∧
      (∃ bytes, Recordable.encode room mixedKey = .ok bytes ∧
        Recordable.decode KeyRecord room bytes = .ok ⟨Value.unmarkedAll mixedKey.values⟩) ∧
      Recordable.encode room (⟨"a", .lt, .literal 0x10000000000000000⟩ : Comparison) =
        .error .integerWidth := by
  intro room
  have hvalues : ∀ v ∈ mixedKey.values, v.Plain := by
    simp only [mixedKey, List.forall_mem_cons, List.not_mem_nil, false_imp_iff, implies_true,
      and_true]
    refine ⟨.scalar (.int _), .scalar (.int _), .scalar (.bool _), .scalar (.nan _ _),
      .scalar (.text (by decide +kernel)), .scalar (.bytes (by decide)), ?_⟩
    refine .dict (by decide) ?_ (by decide +kernel) ?_
    · simpa using ⟨.int 1, .text (by decide +kernel)⟩
    · simpa using ⟨.list (by decide) (by simpa using .scalar .null), .list (by decide) (by simp)⟩
  have hshallow : ∀ v ∈ mixedKey.values, ¬room.reading + 1 < v.levels := by
    simp [room, mixedKey, Value.levels, Value.levelsAll, Value.levelsIn]
  have hs : mixedSchema.Short := ⟨by decide, by decide +kernel, by decide, by decide +kernel⟩
  have hk : mixedKey.Plain := ⟨by decide, hvalues⟩
  have ht : (⟨"t", mixedSchema, [.tuple mixedKey.values]⟩ : Snapshot).Plain :=
    ⟨by decide +kernel, hs, by decide, by simpa using ⟨by decide, hvalues⟩⟩
  have hp : (⟨"a", .lt, .literal 0x10000000000000000⟩ : Comparison).Short :=
    ⟨by decide +kernel, by simp⟩
  have hc : ShortText (⟨"é", .float64⟩ : Column).name := by decide +kernel
  obtain ⟨-, hschema, hsnapshot, hkey, hcomparison⟩ := records_roundTrip room hc hs ht hk hp
  refine ⟨?_, ?_, ?_, ?_⟩
  · obtain ⟨bytes, hbytes, -, hback⟩ := hschema.back not_false not_false (by decide +kernel)
    exact ⟨bytes, hbytes, hback⟩
  · have hrow : ¬(⟨"t", mixedSchema, [.tuple mixedKey.values]⟩ : Snapshot).Deep room.reading := by
      simpa [Snapshot.Deep, Row.values] using hshallow
    have hrecord : ¬Steep room (⟨"t", mixedSchema, [.tuple mixedKey.values]⟩ : Snapshot) :=
      Nat.not_lt.2 (by decide +kernel)
    obtain ⟨bytes, hbytes, -, hback⟩ := hsnapshot.back hrecord hrow (by decide +kernel)
    exact ⟨bytes, hbytes, hback⟩
  · have hvalue : ¬mixedKey.Deep room.reading := by simpa [KeyRecord.Deep] using hshallow
    have hrecord : ¬Steep room mixedKey := Nat.not_lt.2 (by decide +kernel)
    obtain ⟨bytes, hbytes, -, hback⟩ := hkey.back hrecord hvalue (by decide +kernel)
    exact ⟨bytes, hbytes, hback⟩
  · exact (hcomparison.overflow not_false).2 (by decide +kernel)

/-! ## Too many levels -/

/-- An empty list inside of so many lists. -/
def nested : Nat → Value
  | 0 => .list []
  | n + 1 => .list [nested n]

theorem plain_nested (n : Nat) : (nested n).Plain := by
  induction n with
  | zero => exact .list (by decide) (by simp)
  | succ n ih => exact .list (by simp) (by simpa using ih)

theorem levels_nested (n : Nat) : (nested n).levels = n + 1 := by
  induction n with
  | zero => rfl
  | succ n ih => simp [nested, Value.levels, Value.levelsAll, ih]

theorem integers_nested (n : Nat) : (nested n).integers = [] := by
  induction n with
  | zero => rfl
  | succ n ih => simp [nested, Value.integers, Value.integersAll, ih]

/-- A snapshot of one row whose first value is nested. -/
def nestedSnapshot (n : Nat) : Snapshot :=
  ⟨"t", ⟨[⟨"k", .integer64⟩], ["k"]⟩, [.tuple [nested n, .int 1]]⟩

theorem plain_nestedSnapshot (n : Nat) : (nestedSnapshot n).Plain := by
  have hname : ShortText "t" := by decide +kernel
  have hschema : (⟨[⟨"k", .integer64⟩], ["k"]⟩ : SchemaRecord).Short :=
    ⟨by decide, by decide +kernel, by decide, by decide +kernel⟩
  refine ⟨hname, hschema, by simp [nestedSnapshot], ?_⟩
  simpa [nestedSnapshot] using ⟨plain_nested n, .scalar (.int 1)⟩

theorem integers_nestedSnapshot (n : Nat) :
    (Recordable.record (nestedSnapshot n)).integers = [1] := by
  simp [nestedSnapshot, Recordable.record, recordOf, Value.integers, Value.integersIn,
    Value.integersAll, Row.toValue, integers_nested]

theorem lt_levels_nestedSnapshot (n : Nat) : n < (Recordable.record (nestedSnapshot n)).levels := by
  have hrow : n < (Value.tuple [nested n, .int 1]).levels := by
    simp [Value.levels, Value.levelsAll, levels_nested]
  simp [nestedSnapshot, Recordable.record, recordOf, Value.levels, Value.levelsIn, Value.levelsAll,
    Row.toValue, levels_nested]
  omega

/-- There is not room for all levels: some snapshot of plain values with no wide integer is not written,
however much room there is. -/
theorem nestedSnapshot_refused :
    (∀ n, (nestedSnapshot n).Plain ∧
      ∀ i ∈ (Recordable.record (nestedSnapshot n)).integers, ¬Wide i) ∧
    ¬∃ room : Room, ∀ n, ∃ bytes, Recordable.encode room (nestedSnapshot n) = .ok bytes ∧
      Recordable.decode Snapshot room bytes = .ok (nestedSnapshot n).unmarked := by
  have hwide (n : Nat) : ∀ i ∈ (Recordable.record (nestedSnapshot n)).integers, ¬Wide i := by
    rw [integers_nestedSnapshot]
    decide
  refine ⟨fun n => ⟨plain_nestedSnapshot n, hwide n⟩, ?_⟩
  rintro ⟨room, hall⟩
  have hsteep : Steep room (nestedSnapshot (room.writing + 1)) := lt_levels_nestedSnapshot _
  have hrefused : Recordable.encode room (nestedSnapshot (room.writing + 1)) = .error .depth :=
    (written_encode (writable_snapshot (plain_nestedSnapshot _)) room.writing).eq_depth
      (fun ⟨i, hi, hi'⟩ => hwide _ i hi hi') hsteep
  obtain ⟨bytes, hbytes, -⟩ := hall (room.writing + 1)
  rw [hrefused] at hbytes
  cases hbytes

end KeyedRelations
