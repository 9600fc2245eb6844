import KeyedRelations.Proofs.Index.Passage
import KeyedRelations.Proofs.MsgPack.Heads
import KeyedRelations.Record

/-!
# Documents of values

What is written of a value stands for something to a reader that takes the bytes for it. The value
may also be too deep for the reader, which then stops at it. Texts stand for themselves, and lists
and records for what their parts stand for.
-/

namespace KeyedRelations.MsgPack

open Reader

variable {α β σ : Type} {p q : Prop}

/-! ## Bytes -/

/-- What a reader does with bytes that stand for something which may be too deep for it: it takes
them for that, or it stops whatever follows them. -/
inductive Reader.Reads (deep : Prop) (read : Reader α) (bytes : Bytes) (x : α) : Prop
  | whole (h : ¬deep) (htakes : read.Takes bytes x)
  | stopped (h : deep) (hstops : ∀ rest, read (bytes ++ rest) = .error .nesting)

namespace Reader

theorem Takes.reads {read : Reader α} {bytes : Bytes} {x : α} (h : read.Takes bytes x) :
    Reads False read bytes x := .whole not_false h

theorem Reads.congr {read : Reader α} {bytes : Bytes} {x : α} (hiff : p ↔ q)
    (h : Reads p read bytes x) : Reads q read bytes x := by
  rwa [← propext hiff]

theorem Reads.bind {read : Reader α} {next : α → Reader β} {a b : Bytes} {x : α} {y : β}
    (hread : Reads p read a x) (hnext : Reads q (next x) b y) :
    Reads (p ∨ q) (read >>= next) (a ++ b) y := by
  cases hread with
  | stopped hp hstops =>
    refine .stopped (.inl hp) fun rest => ?_
    rw [List.append_assoc]
    simp only [Bind.bind, StateT.bind, hstops, Except.bind]
  | whole hp htakes =>
    cases hnext with
    | stopped hq hstops =>
      refine .stopped (.inr hq) fun rest => ?_
      rw [List.append_assoc]
      simp only [Bind.bind, StateT.bind, htakes.whole, Except.bind, hstops]
    | whole hq hnext => exact .whole (not_or.2 ⟨hp, hq⟩) (htakes.bind hnext)

theorem Reads.bind_pure {read : Reader α} {next : α → Reader β} {bytes : Bytes} {x : α} {y : β}
    (hread : Reads p read bytes x) (hnext : next x = pure y) : Reads p (read >>= next) bytes y := by
  have hpure : Reads False (next x) [] y := by
    rw [hnext]
    exact (takes_pure y).reads
  have hbind := hread.bind hpure
  rw [List.append_nil] at hbind
  exact hbind.congr (iff_of_eq (or_false p))

theorem Reads.map {read : Reader α} {bytes : Bytes} {x : α} (hread : Reads p read bytes x)
    (f : α → β) : Reads p (do return f (← read)) bytes (f x) :=
  hread.bind_pure rfl

/-- What starts with a head is as deep as what is behind it. -/
theorem Takes.bind_reads {read : Reader α} {next : α → Reader β} {a b : Bytes} {x : α} {y : β}
    (hread : read.Takes a x) (hnext : Reads p (next x) b y) :
    Reads p (read >>= next) (a ++ b) y :=
  (hread.reads.bind hnext).congr (iff_of_eq (false_or p))

end Reader

/-! ## Values -/

/-- Whether what is written of a value stands for something which may be too deep for a reader. -/
def Stands (deep : Prop) (v : Value) (read : Reader α) (x : α) : Prop :=
  ∀ levels bytes, encode levels v = .ok bytes → Reads deep read bytes x

theorem Stands.congr {v : Value} {read : Reader α} {x : α} (hiff : p ↔ q) (h : Stands p v read x) :
    Stands q v read x := fun levels bytes hbytes => (h levels bytes hbytes).congr hiff

theorem Stands.map {v : Value} {read : Reader α} {x : α} (h : Stands p v read x) (f : α → β) :
    Stands p v (do return f (← read)) (f x) := fun levels bytes hbytes =>
  (h levels bytes hbytes).map f

/-! ## Texts -/

/-- Whether the head of a text can hold the number of its bytes. -/
def ShortText (s : String) : Prop := (textBytes s).length < 0x100000000

theorem checkLength_eq_ok {n : Nat} : checkLength n = .ok () ↔ n < 0x100000000 := by
  unfold checkLength
  split_ifs with hn <;> simp [hn]

/-- What is behind a head has been written, and its length is not too large. -/
theorem exists_of_sized {n : Nat} {start bytes : Bytes} {parts : Except Fault Bytes}
    (h : (do
      checkLength n
      return start ++ (← parts)) = .ok bytes) :
    n < 0x100000000 ∧ ∃ rest, parts = .ok rest ∧ bytes = start ++ rest := by
  obtain ⟨⟨⟩, hlength, h⟩ := exists_of_bind_eq_ok h
  obtain ⟨rest, hrest, h⟩ := exists_of_bind_eq_ok h
  cases h
  exact ⟨checkLength_eq_ok.1 hlength, rest, hrest, rfl⟩

variable {levels : Nat}

theorem encode_text {s : String} (hs : ShortText s) :
    encode levels (.text s) = .ok (encodeText s) := by
  rw [encode, checkLength_eq_ok.2 hs]
  rfl

theorem encode_text_eq_ok {s : String} {bytes : Bytes} (h : encode levels (.text s) = .ok bytes) :
    ShortText s ∧ bytes = encodeText s := by
  rw [encode] at h
  obtain ⟨⟨⟩, hlength, h⟩ := exists_of_bind_eq_ok h
  cases h
  exact ⟨checkLength_eq_ok.1 hlength, rfl⟩

theorem utf8_textBytes (s : String) : utf8 (textBytes s) = pure s := by
  have hread : String.fromUTF8? ⟨(textBytes s).toArray⟩ = some s := by
    exact dif_pos s.isValidUTF8
  unfold utf8
  rw [hread]

theorem textBytes_injective : Function.Injective textBytes := by
  intro s t heq
  have hread := utf8_textBytes s
  rw [heq, utf8_textBytes] at hread
  have hrun := congrFun hread []
  cases hrun
  rfl

theorem takes_text {s : String} (hs : ShortText s) : text.Takes (encodeText s) s :=
  (takes_textHead hs).bind_pure (utf8_textBytes s)

theorem stands_text (s : String) : Stands False (.text s) text s := by
  intro levels bytes h
  obtain ⟨hs, rfl⟩ := encode_text_eq_ok h
  exact (takes_text hs).reads

theorem stands_word {ofText? : String → Option α} {s : String} {x : α} (hx : ofText? s = some x) :
    Stands False (.text s) (word ofText?) x := by
  intro levels bytes h
  obtain ⟨hs, rfl⟩ := encode_text_eq_ok h
  have htakes : (word ofText?).Takes (encodeText s) x := by
    refine (takes_text hs).bind_pure ?_
    rw [hx]
  exact htakes.reads

/-! ## Parts -/

/-- The items of an array are written one level below it. -/
theorem exists_of_encodeAll_cons {v : Value} {vs : List Value} {bytes : Bytes}
    (h : encodeAll levels (v :: vs) = .ok bytes) :
    ∃ below first rest, encode below v = .ok first ∧ encodeAll levels vs = .ok rest ∧
      bytes = first ++ rest := by
  cases levels with
  | zero => cases h
  | succ below =>
    rw [encodeAll] at h
    obtain ⟨first, hfirst, h⟩ := exists_of_bind_eq_ok h
    obtain ⟨rest, hrest, h⟩ := exists_of_bind_eq_ok h
    cases h
    exact ⟨below, first, rest, hfirst, hrest, rfl⟩

theorem exists_of_encodeEntries_cons {k v : Value} {entries : List (Value × Value)} {bytes : Bytes}
    (h : encodeEntries levels ((k, v) :: entries) = .ok bytes) :
    ∃ below key value rest, encode below k = .ok key ∧ encode below v = .ok value ∧
      encodeEntries levels entries = .ok rest ∧ bytes = key ++ value ++ rest := by
  cases levels with
  | zero => cases h
  | succ below =>
    rw [encodeEntries] at h
    obtain ⟨key, hkey, h⟩ := exists_of_bind_eq_ok h
    obtain ⟨value, hvalue, h⟩ := exists_of_bind_eq_ok h
    obtain ⟨rest, hrest, h⟩ := exists_of_bind_eq_ok h
    cases h
    exact ⟨below, key, value, rest, hkey, hvalue, hrest, rfl⟩

/-! ## Lists -/

variable {ι : Type} {item : Reader α} {deep : ι → Prop} {value : ι → Value} {f : ι → α} {xs : List ι}

theorem reads_many {bytes : Bytes} (hxs : ∀ x ∈ xs, Stands (deep x) (value x) item (f x))
    (h : encodeAll levels (xs.map value) = .ok bytes) :
    Reads (∃ x ∈ xs, deep x) (many item xs.length) bytes (xs.map f) := by
  induction xs generalizing bytes with
  | nil =>
    cases h
    exact (takes_pure []).reads.congr (by simp)
  | cons x xs ih =>
    rw [List.forall_mem_cons] at hxs
    obtain ⟨_, first, rest, hfirst, hrest, rfl⟩ := exists_of_encodeAll_cons h
    exact ((hxs.1 _ _ hfirst).bind ((ih hxs.2 hrest).map (f x :: ·))).congr (by simp)

/-- Lists and tuples are written alike. A list is too deep if some item is. -/
theorem stands_list (hxs : ∀ x ∈ xs, Stands (deep x) (value x) item (f x)) :
    Stands (∃ x ∈ xs, deep x) (.list (xs.map value)) (list item) (xs.map f) ∧
      Stands (∃ x ∈ xs, deep x) (.tuple (xs.map value)) (list item) (xs.map f) := by
  have hsized : ∀ levels bytes, (do
      checkLength (xs.map value).length
      return arrayHead (xs.map value).length ++ (← encodeAll levels (xs.map value))) = .ok bytes →
        Reads (∃ x ∈ xs, deep x) (list item) bytes (xs.map f) := by
    intro levels bytes h
    obtain ⟨hlength, rest, hrest, rfl⟩ := exists_of_sized h
    refine (takes_arrayHead hlength).bind_reads ?_
    rw [List.length_map]
    exact reads_many hxs hrest
  constructor
  · intro levels bytes h
    rw [encode] at h
    exact hsized levels bytes h
  · intro levels bytes h
    rw [encode] at h
    exact hsized levels bytes h

/-! ## Records -/

/-- Whether what is written of the fields of a record leads from what is known before to what is
known after them, unless a field is too deep. -/
def FieldsStand (deep : Prop) (reading : Nat) (known : List (String × (σ → Reader σ)))
    (fields : List (String × Value)) (found final : σ) : Prop :=
  ∀ levels bytes, encodeEntries levels (fields.map fun (name, v) => (.text name, v)) = .ok bytes →
    Reads deep (Reader.fields reading known fields.length found) bytes final

variable {reading : Nat} {known : List (String × (σ → Reader σ))} {fields : List (String × Value)}
  {found next final start : σ}

theorem find?_textBytes {name : String} {read : σ → Reader σ}
    (h : known.lookup name = some read) :
    (known.find? fun field => textBytes field.1 == textBytes name) = some (name, read) := by
  induction known with
  | nil => cases h
  | cons field known ih =>
    obtain ⟨other, read'⟩ := field
    by_cases heq : other = name
    · subst heq
      simp at h
      simp [h]
    · have hbytes : textBytes other ≠ textBytes name := fun h => heq (textBytes_injective h)
      have hbeq : (name == other) = false := by simpa using Ne.symm heq
      rw [List.lookup_cons, hbeq] at h
      rw [List.find?_cons_of_neg (by simpa using hbytes)]
      exact ih h

theorem fieldsStand_nil : FieldsStand False reading known [] found found := by
  intro levels bytes h
  cases h
  exact (takes_pure found).reads

theorem FieldsStand.cons {name : String} {v : Value} {read : σ → Reader σ}
    (hknown : known.lookup name = some read) (hv : Stands p v (read found) next)
    (hrest : FieldsStand q reading known fields next final) :
    FieldsStand (p ∨ q) reading known ((name, v) :: fields) found final := by
  intro levels bytes h
  obtain ⟨_, _, value, rest, hname, hvalue, hmore, rfl⟩ := exists_of_encodeEntries_cons h
  obtain ⟨hshort, rfl⟩ := encode_text_eq_ok hname
  rw [List.append_assoc]
  refine (takes_fieldName hshort).bind_reads ?_
  rw [find?_textBytes hknown]
  exact (hv _ value hvalue).bind (hrest _ rest hmore)

theorem stands_record (final : σ) {finish : σ → Option α} {x : α}
    (h : FieldsStand p reading known fields start final) (hfinish : finish final = some x) :
    Stands p (recordOf fields) (Reader.record reading start known finish) x := by
  intro levels bytes hbytes
  rw [recordOf, encode] at hbytes
  obtain ⟨hlength, rest, hrest, rfl⟩ := exists_of_sized hbytes
  refine (takes_mapHead hlength).bind_reads ?_
  dsimp only
  rw [List.length_map]
  refine (h _ rest hrest).bind_pure ?_
  rw [hfinish]

/-! ## Whole documents -/

variable [Recordable α] {room other : Room} {x y : α} {bytes : Bytes}

/-- What is written can be read back, unless it is too deep. There may be more room for the one than
for the other. -/
theorem decode_encode (hx : Stands p (Recordable.record x) (Recordable.read room.reading) y)
    (h : Recordable.encode other x = .ok bytes) (hp : ¬p) : Recordable.decode α room bytes = .ok y := by
  cases hx _ bytes h with
  | stopped hdeep _ => exact absurd hdeep hp
  | whole _ htakes =>
    have hread := htakes.whole []
    rw [List.append_nil] at hread
    unfold Recordable.decode readAll
    rw [StateT.run, hread]
    rfl

theorem decode_deep (hx : Stands p (Recordable.record x) (Recordable.read room.reading) y)
    (h : Recordable.encode other x = .ok bytes) (hp : p) : Recordable.decode α room bytes = .error .nesting := by
  cases hx _ bytes h with
  | whole hshallow _ => exact absurd hp hshallow
  | stopped _ hstops =>
    have hread := hstops []
    rw [List.append_nil] at hread
    unfold Recordable.decode readAll
    rw [StateT.run, hread]
    rfl

/-- A document that has lost its end is malformed, wherever it is cut. -/
theorem decode_take (hx : Stands p (Recordable.record x) (Recordable.read room.reading) y)
    (h : Recordable.encode other x = .ok bytes) (hp : ¬p) {n : Nat} (hn : n < bytes.length) :
    Recordable.decode α room (bytes.take n) = .error (.document .malformed) := by
  cases hx _ bytes h with
  | stopped hdeep _ => exact absurd hdeep hp
  | whole _ htakes =>
    unfold Recordable.decode readAll
    rw [StateT.run, htakes.torn n hn]
    rfl

/-- A document with something behind it is malformed, whatever that is. -/
theorem decode_append (hx : Stands p (Recordable.record x) (Recordable.read room.reading) y)
    (h : Recordable.encode other x = .ok bytes) (hp : ¬p) {rest : Bytes} (hrest : rest ≠ []) :
    Recordable.decode α room (bytes ++ rest) = .error (.document .malformed) := by
  cases hx _ bytes h with
  | stopped hdeep _ => exact absurd hdeep hp
  | whole _ htakes =>
    obtain ⟨b, rest, rfl⟩ := List.exists_cons_of_ne_nil hrest
    unfold Recordable.decode readAll
    rw [StateT.run, htakes.whole (b :: rest)]
    rfl

/-- Of all that a document starts with, and of all that starts with it, only the document itself can
be read. -/
theorem decode_damaged (hx : Stands p (Recordable.record x) (Recordable.read room.reading) y)
    (h : Recordable.encode other x = .ok bytes) (hp : ¬p) {found : Bytes}
    (hfound : found <+: bytes ∨ bytes <+: found) (hne : found ≠ bytes) :
    Recordable.decode α room found = .error (.document .malformed) := by
  rcases hfound with hcut | ⟨rest, rfl⟩
  · have hlt : found.length < bytes.length :=
      lt_of_le_of_ne hcut.length_le fun heq => hne (hcut.eq_of_length heq)
    rw [List.prefix_iff_eq_take.1 hcut]
    exact decode_take hx h hp hlt
  · have hrest : rest ≠ [] := by
      rintro rfl
      exact hne (List.append_nil bytes)
    exact decode_append hx h hp hrest

end KeyedRelations.MsgPack
