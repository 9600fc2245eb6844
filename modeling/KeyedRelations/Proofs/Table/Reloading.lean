import KeyedRelations.Proofs.Key.Cuts
import KeyedRelations.Proofs.Lists.Repetitions
import KeyedRelations.Proofs.Relation.Schemas
import KeyedRelations.Proofs.Table.Entries

/-!
# Tables loaded again

A snapshot may repeat a key. Its rows are stored all the same, and each key leads to the first of its
rows, so the index answers as if the rows had been inserted one by one and the later ones of a key
refused, except that these are in the table. For a table that was filled by insertions nothing is
repeated, and its snapshot gives the table back with the very index that it had.
-/

namespace KeyedRelations

/-! ## Any key asked for -/

theorem Key.same_comm {domains : List Domain} {a b : Key}
    (ha : a ∈ {key | Key.Typed domains key ∧ key.hasNaN = false})
    (hb : b ∈ {key | Key.Typed domains key ∧ key.hasNaN = false}) :
    Key.order.same a b = Key.order.same b a := by
  have hline := Key.along_line domains
  rw [Bool.eq_iff_iff, hline.same_iff ha hb, hline.same_iff hb ha, eq_comm]

/-- Whatever key is asked for, the index answers with the accepted row that has it. -/
theorem PrimaryIndex.Represents.eq_of_find? {index : TableIndex} {accepted : List (Key × Row)}
    (hrep : index.Represents accepted) {domains : List Domain}
    (hkeys : ∀ e ∈ accepted, e.1 ∈ {key | Key.Typed domains key ∧ key.hasNaN = false}) {key : Key}
    {found? : Option Row} (hfind : index.find? Key.order key = .ok found?) :
    found? = (accepted.find? fun e => Key.order.same e.1 key).map (·.2) := by
  have hparts := Key.parts_line domains key
  have hkeysHere : ∀ e ∈ index.toList, e.1 ∈ {key | Key.Typed domains key ∧ key.hasNaN = false} :=
    fun e he => hkeys e (hrep.perm.mem_iff.1 he)
  have hascending := (ascending_iff_sorted (Key.along_line domains) hkeysHere).2 hrep.sorted
  have hdistinct : index.toList.Pairwise fun a b => a.1.line ≠ b.1.line := hascending.imp ne_of_lt
  have hsymm : Std.Symm fun a b : Key × Row => a.1.line ≠ b.1.line := ⟨fun _ _ h => h.symm⟩
  have hunique : ∀ a ∈ index.toList, ∀ b ∈ index.toList, Key.order.same a.1 key = true →
      Key.order.same b.1 key = true → a = b := by
    intro a ha b hb hsame hsame'
    by_contra hne
    exact hdistinct.forall ha hb hne
      (hparts.place_eq (hkeysHere a ha) (hkeysHere b hb) hsame hsame')
  rw [← find?_of_perm hrep.perm hunique]
  exact Index.Node.eq_of_find? hparts hascending hkeysHere hfind

namespace Table

/-! ## Loading -/

/-- The rows without those whose key has come before. -/
def firsts (t : Table) : List Row :=
  t.rows.eraseDupsBy fun a b => Key.order.same (t.keyOf a) (t.keyOf b)

/-- The rows fit the schema and have no `NaN` in their keys, and the index leads from each key to its
first row. -/
structure Loaded (t : Table) : Prop where
  fitting : ∀ row ∈ t.rows, Fitting t.schema.domains row.values
  free : t.FreeOfNaN
  represents : t.index.Represents (t.firsts.map fun row => (t.keyOf row, row))

variable {t : Table}

theorem loaded_empty (session : SessionId) (name : String) (schema : Schema) :
    (Table.empty session name schema).Loaded where
  fitting _ hrow := absurd hrow List.not_mem_nil
  free _ hrow := absurd hrow List.not_mem_nil
  represents := ⟨List.Pairwise.nil, .nil, rfl⟩

namespace Loaded

variable (ht : t.Loaded)

include ht

theorem key_mem {row : Row} (hrow : row ∈ t.rows) :
    t.keyOf row ∈ {key | Key.Typed t.schema.keyDomains key ∧ key.hasNaN = false} :=
  ⟨(Schema.fitting_keyOf (ht.fitting row hrow)).typed, ht.free row hrow⟩

theorem entries_mem : ∀ e ∈ t.firsts.map fun row => (t.keyOf row, row),
    e.1 ∈ {key | Key.Typed t.schema.keyDomains key ∧ key.hasNaN = false} := by
  intro e he
  obtain ⟨row, hrow, rfl⟩ := List.mem_map.1 he
  exact ht.key_mem (eraseDupsBy_subset _ hrow)

theorem typedIndex : t.TypedIndex := fun e he =>
  (ht.entries_mem e (ht.represents.perm.mem_iff.1 he)).1

theorem size_eq : t.index.size = ((t.rows.map t.keyOf).eraseDupsBy Key.order.same).length := by
  rw [ht.represents.size_eq, map_eraseDupsBy, List.length_map, List.length_map]
  rfl

theorem find?_firsts (key : Key) :
    t.firsts.find? (fun row => Key.order.same (t.keyOf row) key) =
      t.rows.find? fun row => Key.order.same (t.keyOf row) key := by
  refine find?_eraseDupsBy _ fun a ha b hb hsame => ?_
  have ha' := ht.key_mem ha
  have hb' := ht.key_mem hb
  have hline := ((Key.along_line _).same_iff ha' hb').1 hsame
  exact Key.same_congr ha'.1 hb'.1 ha'.2 hb'.2 hline key

/-- A search that has an answer finds the first row with the key. -/
theorem eq_of_find? {key : Key} {found? : Option Row}
    (hfind : t.index.find? Key.order key = .ok found?) :
    found? = t.rows.find? fun row => Key.order.same (t.keyOf row) key := by
  rw [ht.represents.eq_of_find? ht.entries_mem hfind, List.find?_map, Option.map_map,
    ← ht.find?_firsts]
  exact Option.map_id'

/-- A key of the key domains can be searched for. -/
theorem find?_typed {key : Key} (hkey : Key.Typed t.schema.keyDomains key) :
    t.index.find? Key.order key =
      .ok (t.rows.find? fun row => Key.order.same (t.keyOf row) key) := by
  obtain ⟨found?, hfind⟩ := ht.typedIndex.exists_find? hkey
  rw [hfind, ht.eq_of_find? hfind]

end Loaded

theorem firsts_concat (t : Table) (row : Row) (index : TableIndex) :
    firsts { t with rows := t.rows ++ [row], index } =
      if t.firsts.any fun other => Key.order.same (t.keyOf row) (t.keyOf other) then t.firsts
      else t.firsts ++ [row] :=
  eraseDupsBy_concat row t.rows

/-- Among the rows of a table that is loaded, sameness of keys is symmetric, and the new row counts as
one of them. -/
theorem Loaded.same_comm (ht : t.Loaded) {key : Key} (hkey : Key.Typed t.schema.keyDomains key)
    (hnan : key.hasNaN = false) {row : Row} (hrow : row ∈ t.rows) :
    Key.order.same key (t.keyOf row) = Key.order.same (t.keyOf row) key :=
  Key.same_comm ⟨hkey, hnan⟩ (ht.key_mem hrow)

theorem Loaded.addLoaded (ht : t.Loaded) {values : Tuple} (hfit : Fitting t.schema.domains values)
    (hnan : Key.hasNaN (t.schema.keyOf values) = false) :
    ∃ index, t.addLoaded (.tuple values) =
        .ok { t with rows := t.rows ++ [.tuple values], index } ∧
      Loaded { t with rows := t.rows ++ [.tuple values], index } := by
  have hkey := (Schema.fitting_keyOf hfit).typed
  have hfitting : ∀ row ∈ t.rows ++ [.tuple values], Fitting t.schema.domains row.values :=
    List.forall_mem_append.2 ⟨ht.fitting, List.forall_mem_singleton.2 hfit⟩
  have hfree : ∀ row ∈ t.rows ++ [.tuple values], (t.keyOf row).hasNaN = false :=
    List.forall_mem_append.2 ⟨ht.free, List.forall_mem_singleton.2 hnan⟩
  have hfind := ht.find?_typed hkey
  have hfirst := ht.find?_firsts (t.schema.keyOf values)
  -- A key that has come before leaves the index and the first rows alone.
  cases hfound : t.rows.find? fun row => Key.order.same (t.keyOf row) (t.schema.keyOf values) with
  | some other =>
    rw [hfound] at hfind hfirst
    refine ⟨t.index, addLoaded_found hfit hfind, hfitting, hfree, ?_⟩
    have hmem := List.mem_of_find?_eq_some hfirst
    have hsame := List.find?_some hfirst
    rw [← ht.same_comm hkey hnan (eraseDupsBy_subset _ hmem)] at hsame
    rw [firsts_concat, if_pos (List.any_eq_true.2 ⟨other, hmem, hsame⟩)]
    exact ht.represents
  | none =>
    rw [hfound] at hfind hfirst
    have htotal := totalOn_union hkey hnan
    rcases ht.represents.insertAs ht.entries_mem htotal t.name (.tuple values) with
      ⟨e, he, hsame, -⟩ | ⟨index, -, hinsert, hrep⟩
    · obtain ⟨row, hrow, rfl⟩ := List.mem_map.1 he
      exact absurd hsame (List.find?_eq_none.1 hfirst row hrow)
    · refine ⟨index, addLoaded_new hfit hfind hinsert, hfitting, hfree, ?_⟩
      have hnew : ¬(t.firsts.any fun other =>
          Key.order.same (t.keyOf (.tuple values)) (t.keyOf other)) = true := by
        rw [List.any_eq_true]
        rintro ⟨row, hrow, hsame⟩
        have hsame' := ht.same_comm hkey hnan (eraseDupsBy_subset _ hrow)
        exact List.find?_eq_none.1 hfirst row hrow (hsame'.symm.trans hsame)
      rw [firsts_concat, if_neg hnew, List.map_append]
      exact hrep

/-- All rows of a snapshot are stored in order, as tuples. -/
theorem Loaded.foldlM_addLoaded (ht : t.Loaded) {rows : List Row}
    (hfits : ∀ row ∈ rows, t.schema.fits row = true)
    (hfree : ∀ row ∈ rows, Key.hasNaN (t.schema.keyOf row.values) = false) :
    ∃ u : Table, rows.foldlM Table.addLoaded t = .ok u ∧ u.name = t.name ∧ u.session = t.session ∧
      u.schema = t.schema ∧ u.rows = t.rows ++ rows.map (fun row => .tuple row.values) ∧ u.Loaded := by
  induction rows generalizing t with
  | nil => exact ⟨t, rfl, rfl, rfl, rfl, (List.append_nil _).symm, ht⟩
  | cons row rows ih =>
    obtain ⟨hfitsHere, hfitsRest⟩ := List.forall_mem_cons.1 hfits
    obtain ⟨hfreeHere, hfreeRest⟩ := List.forall_mem_cons.1 hfree
    obtain ⟨values, hvalid⟩ : ∃ values, t.schema.validate row = .ok values := by
      unfold Schema.fits at hfitsHere
      cases h : t.schema.validate row with
      | ok values => exact ⟨values, rfl⟩
      | error fault => simp [h, Except.isOk, Except.toBool] at hfitsHere
    obtain ⟨rfl, hfit⟩ := Schema.validate_eq_ok.1 hvalid
    obtain ⟨index, hadded, hloaded⟩ := ht.addLoaded hfit hfreeHere
    obtain ⟨u, hu, hname, hsession, hschema, hrows, hloaded⟩ := ih hloaded hfitsRest hfreeRest
    refine ⟨u, ?_, hname, hsession, hschema, ?_, hloaded⟩
    · rw [List.foldlM_cons, addLoaded_congr (hvalid.trans (Schema.validate_tuple hfit).symm), hadded]
      exact hu
    · rw [hrows, List.map_cons, List.append_assoc]
      rfl

/-! ## First come, first served -/

/-- The index of a table gives the first row of each key, counts the keys and refuses those that
occur. -/
structure FirstWins (t : Table) : Prop where
  found : ∀ key found?, t.index.find? Key.order key = .ok found? →
    found? = t.rows.find? fun row => Key.order.same (t.keyOf row) key
  answered : ∀ key, Key.Typed t.schema.keyDomains key →
    ∃ found?, t.index.find? Key.order key = .ok found?
  size_eq : t.index.size = ((t.rows.map t.keyOf).eraseDupsBy Key.order.same).length
  taken : ∀ row values, t.schema.validate row = .ok values →
    (∃ other ∈ t.rows, Key.order.same (t.keyOf other) (t.schema.keyOf values) = true) →
    t.insert row = (t, .error (.keyConflict t.name (t.schema.keyOf values)))
  stored : ∀ row values, t.schema.validate row = .ok values →
    (∀ other ∈ t.rows, Key.order.same (t.keyOf other) (t.schema.keyOf values) = false) →
    ∃ index, t.insert row = ({ t with rows := t.rows ++ [.tuple values], index }, .ok values)

theorem Loaded.firstWins (ht : t.Loaded) : t.FirstWins where
  found _ _ := ht.eq_of_find?
  answered _ hkey := ⟨_, ht.find?_typed hkey⟩
  size_eq := ht.size_eq
  taken row values hvalid htaken := by
    obtain ⟨other, hother, hsame⟩ := htaken
    have hkey := (Schema.fitting_keyOf (Schema.validate_eq_ok.1 hvalid).2).typed
    have hsome : (t.rows.find? fun row =>
        Key.order.same (t.keyOf row) (t.schema.keyOf values)).isSome :=
      List.find?_isSome.2 ⟨other, hother, hsame⟩
    obtain ⟨first, hfirst⟩ := Option.isSome_iff_exists.1 hsome
    have hfind := ht.find?_typed hkey
    rw [hfirst] at hfind
    simp only [Table.insert, examine_eq_ok.2 hvalid, PrimaryIndex.insertAs_found hfind,
      Key.conflict_worded t.name hkey.worded]
  stored row values hvalid hnew := by
    have hkey := (Schema.fitting_keyOf (Schema.validate_eq_ok.1 hvalid).2).typed
    have hnone : (t.rows.find? fun row =>
        Key.order.same (t.keyOf row) (t.schema.keyOf values)) = none :=
      List.find?_eq_none.2 fun other hother => by simp [hnew other hother]
    have hfind := ht.find?_typed hkey
    rw [hnone] at hfind
    obtain ⟨index, hinsert⟩ := ht.typedIndex.exists_insertAs hkey hfind t.name (.tuple values)
    refine ⟨index, ?_⟩
    simp only [Table.insert, examine_eq_ok.2 hvalid, hinsert]

/-! ## Tables that were filled by insertions -/

/-- The rows of the table, loaded one after the other, give its index again. -/
structure Replays (session : SessionId) (t : Table) : Prop where
  sound : t.Sound
  indexed : t.Indexed
  load : t.rows.foldlM Table.addLoaded (Table.empty session t.name t.schema) = .ok { t with session }

theorem Replays.insert {session : SessionId} (ht : t.Replays session) (row : Row) :
    (t.insert row).1.Replays session := by
  refine ⟨ht.sound.insert row, ht.indexed.insert row, ?_⟩
  rcases hresult : t.insert row with ⟨u, fault | stored⟩
  · have htyped := ht.indexed.typedIndex ht.sound.rows
    obtain rfl := htyped.eq_of_insert_error hresult
    exact ht.load
  · rcases t.insert_cases row with
      ⟨fault, heq⟩ | ⟨values, index, fault, -, -, heq⟩ | ⟨values, index, hfit, hinsert, heq⟩
    · cases heq.symm.trans hresult
    · cases heq.symm.trans hresult
    · cases heq.symm.trans hresult
      have hfind := PrimaryIndex.find?_of_insertAs_ok hinsert
      have hadded := addLoaded_new (t := { t with session }) hfit hfind hinsert
      rw [List.foldlM_append, ht.load]
      change List.foldlM Table.addLoaded { t with session } [.tuple stored] = _
      rw [List.foldlM_cons, hadded]
      rfl

theorem replays_offers (session start : SessionId) (name : String) (schema : Schema)
    (offers : List Offer) :
    (offers.foldl Table.offer (Table.empty start name schema)).Replays session := by
  have hempty : (Table.empty start name schema).Replays session :=
    ⟨sound_empty start name schema, indexed_empty start name schema, rfl⟩
  generalize Table.empty start name schema = t at hempty
  induction offers generalizing t with
  | nil => exact hempty
  | cons offer offers ih =>
    exact ih _ (offer_induction (fun _ row hu => hu.insert row) hempty offer)

theorem Replays.ofSnapshot {session : SessionId} (ht : t.Replays session) :
    Table.ofSnapshot session t.toSnapshot = .ok { t with session } := by
  unfold Table.ofSnapshot Table.toSnapshot
  rw [Schema.ofRecord_toRecord]
  exact ht.load

end Table

/-! ## Calls and answers -/

/-- A call of a table that is about its keys. -/
inductive TableCall where
  | insert (row : Row)
  | selectKey (v : Value)
  | range (low high : Option Key)
  | depth

inductive TableAnswer where
  | stored (values : Tuple)
  | selected (r : Relation)
  | entries (es : List (Key × Row))
  | depth (levels : Nat)

namespace Table

/-- The table after a call, with the answer. -/
def answer (t : Table) : TableCall → Table × Except Fault TableAnswer
  | .insert row =>
    let (t, result) := t.insert row
    (t, result.map .stored)
  | .selectKey v => (t, ((UnaryOperation.selectKey v).result t).map .selected)
  | .range low high => (t, ((t.index.range Key.order low high).mapError .incomparable).map .entries)
  | .depth => (t, .ok (.depth t.index.depth))

/-- The answers to calls one after the other. -/
def answers (t : Table) : List TableCall → List (Except Fault TableAnswer)
  | [] => []
  | call :: calls =>
    let (t, answer) := t.answer call
    answer :: t.answers calls

theorem insert_session (t : Table) (session : SessionId) (row : Row) :
    ({ t with session } : Table).insert row =
      ({ (t.insert row).1 with session }, (t.insert row).2) := by
  have hexamine : ({ t with session } : Table).examine row = t.examine row := rfl
  unfold Table.insert
  rw [hexamine]
  cases t.examine row with
  | error fault => rfl
  | ok values =>
    dsimp only
    rcases t.index.insertAs t.name (t.schema.keyOf values) (.tuple values) with ⟨index, fault | _⟩ <;>
      rfl

/-- The answers of a table do not depend on its session. -/
theorem answer_session (t : Table) (session : SessionId) (call : TableCall) :
    ({ t with session } : Table).answer call =
      ({ (t.answer call).1 with session }, (t.answer call).2) := by
  cases call with
  | insert row => simp only [answer, insert_session]
  | _ => rfl

theorem answers_session (t : Table) (session : SessionId) (calls : List TableCall) :
    ({ t with session } : Table).answers calls = t.answers calls := by
  induction calls generalizing t with
  | nil => rfl
  | cons call calls ih =>
    simp only [answers, answer_session, ih]

/-- A snapshot whose rows fit, without `NaN` in the key columns, gives a table with all its rows in
order and an index in which the first row of each key counts. A table that was filled by insertions
comes back from its snapshot as it was, and so answers all later calls as it would have done. -/
theorem reloaded (session : SessionId) :
    (∀ (s : Snapshot) (schema : Schema), Schema.ofRecord s.schema = .ok schema →
      (∀ row ∈ s.rows, schema.fits row = true) →
      (∀ row ∈ s.rows, Key.hasNaN (schema.keyOf row.values) = false) →
      ∃ t, Table.ofSnapshot session s = .ok t ∧ t.name = s.name ∧ t.session = session ∧
        t.schema = schema ∧ t.rows = s.rows.map (fun row => .tuple row.values) ∧ t.FirstWins) ∧
    ∀ (start : SessionId) (name : String) (schema : Schema) (offers : List Offer),
      let t := offers.foldl Table.offer (Table.empty start name schema)
      ∃ u, Table.ofSnapshot session t.toSnapshot = .ok u ∧ u = { t with session } ∧
        ∀ calls, u.answers calls = t.answers calls := by
  refine ⟨fun s schema hschema hfits hfree => ?_, fun start name schema offers => ?_⟩
  · have hempty := loaded_empty session s.name schema
    obtain ⟨t, hload, hname, hsession, hsame, hrows, hloaded⟩ :=
      hempty.foldlM_addLoaded hfits hfree
    refine ⟨t, ?_, hname, hsession, hsame, hrows, hloaded.firstWins⟩
    rw [ofSnapshot, hschema]
    exact hload
  · intro t
    exact ⟨_, (replays_offers session start name schema offers).ofSnapshot, rfl,
      t.answers_session session⟩

/-- A snapshot in which two of three rows have the same key. -/
def sameNumber : Snapshot where
  name := "t"
  schema := keyFirst.toRecord
  rows := [.tuple [.int 7, .text "a"], .tuple [.int 7, .text "b"], .tuple [.int 5, .text "c"]]

theorem reloaded_same_number :
    ∃ t, Table.ofSnapshot ⟨1⟩ sameNumber = .ok t ∧ t.rows = sameNumber.rows ∧ t.index.size = 2 ∧
      t.index.find? Key.order [.int 7] = .ok (some (.tuple [.int 7, .text "a"])) := by
  obtain ⟨t, hload, -, -, hschema, hrows, hfirst⟩ :=
    (reloaded ⟨1⟩).1 sameNumber keyFirst keyFirst.ofRecord_toRecord (by decide) (by decide)
  have hkeyOf : t.keyOf = fun row => keyFirst.keyOf row.values := by
    unfold keyOf
    rw [hschema]
  have hkey : Key.Typed t.schema.keyDomains [.int 7] := by
    rw [hschema]
    exact .cons (.whole rfl (by decide) (by decide)) .nil
  obtain ⟨found?, hfind⟩ := hfirst.answered _ hkey
  refine ⟨t, hload, hrows, ?_, ?_⟩
  · rw [hfirst.size_eq, hrows, hkeyOf]
    decide
  · rw [hfind, hfirst.found _ _ hfind, hrows, hkeyOf]
    rfl

end Table

end KeyedRelations
