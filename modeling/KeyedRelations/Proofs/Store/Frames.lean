import KeyedRelations.Proofs.Frame.Rows
import KeyedRelations.Proofs.Store.BulkLoading
import KeyedRelations.Proofs.Table.Refilling

/-!
# Tables through frames

A table without columns of single precision has a frame with its rows as they are. The table that is
made of the frame has the rows that are the first with their keys, and finds each of them.
-/

namespace KeyedRelations

namespace Row.Fits

variable {row : Row} {domains : List Domain}

theorem tuple_values (h : row.Fits domains) : .tuple row.values = row := by
  obtain ⟨values, rfl, -⟩ := h
  rfl

theorem fitting_values (h : row.Fits domains) : Fitting domains row.values := by
  obtain ⟨values, rfl, hfit⟩ := h
  exact hfit

end Row.Fits

namespace Store

/-- The table of a frame is an empty table that the rows of the frame have been inserted into. -/
theorem tableOfFrame_run {session : SessionId} {name : String} {frame : Frame} {schema : Schema}
    {domains : List Domain} {key : List String} (hschema : frame.schema domains key = .ok schema)
    (hreadable : frame.readable = (frame.rows, none))
    (hsettled : Settled ((Table.empty session name schema).insertAll (frame.rows.map .tuple)).2)
    (store : Store) :
    ∃ trace, tableOfFrame session name frame (.list domains) (.list key) store =
      .ok ⟨store.tables.length⟩ { store with
        tables := store.tables ++
          [((Table.empty session name schema).insertAll (frame.rows.map .tuple)).1], trace } := by
  let t := Table.empty session name schema
  let rows : List Row := frame.rows.map .tuple
  let grown : Store := { store with tables := store.tables ++ [t] }
  have hparsed : ((DomainSource.list domains).domains >>= fun domains =>
      frame.schema domains (KeySource.list key).attributes) = .ok schema := hschema
  have hdeclared : outcome (.ok schema) store = .ok schema store := rfl
  have hmade : addTable t store = .ok ⟨store.tables.length⟩ grown := rfl
  have hset : grown.tables.set store.tables.length (t.insertAll rows).1 =
      store.tables ++ [(t.insertAll rows).1] := by
    simp [grown]
  obtain ⟨trace, hbuild⟩ := build_run ⟨store.tables.length⟩ (.ofTable t) (·.extend rows)
    ((Builder.ofTable t).extend_eq rows hsettled) grown
  dsimp only [Builder.loaded, Builder.ofTable] at hbuild
  rw [hset] at hbuild
  unfold tableOfFrame
  rw [hparsed, bind_ok hdeclared]
  dsimp only
  rw [bind_ok hmade, hreadable]
  dsimp only
  rw [Builder.ofTable, bind_ok hbuild]
  dsimp only
  split_ifs
  · exact ⟨_, rfl⟩
  · exact ⟨_, rfl⟩

variable {store : Store} {id : TableId} {t : Table}

/-- The frame of a table without columns of single precision, and without `NaN` in a key, makes a table
anywhere with the same schema. It has the rows that are the first with their keys, each of which is
found under its key, and that is all of them if the table was filled by insertions. -/
theorem tableOfFrame_toFrame (hstore : Reached store) (ht : store.tables[id.number]? = some t)
    (hsingle : .float32 ∉ t.schema.domains) (hfree : t.FreeOfNaN) (session : SessionId)
    (name : String) (later : Store) :
    ∃ (frame : Frame) (u : Table) (trace : List Trace.Entry), t.toFrame = .ok frame ∧
      tableOfFrame session name frame (.list t.schema.domains) (.list t.schema.key) later =
        .ok ⟨later.tables.length⟩ { later with tables := later.tables ++ [u], trace } ∧
      u.session = session ∧ u.name = name ∧ u.schema = t.schema ∧ u.rows = t.firsts ∧
      (∀ row ∈ u.rows, u.index.find? Key.order (u.keyOf row) = .ok (some row)) ∧
      u.index.size = u.rows.length ∧
      ∀ (start : SessionId) (base : String) (offers : List Offer),
        t = offers.foldl Table.offer (Table.empty start base t.schema) → u.rows = t.rows := by
  have hfits := (hstore.forall_tables Table.kept_sound t (List.mem_of_getElem? ht)).rows
  have hrefilled := Table.refilled_insertAll session name t.schema hfits hfree
  let frame : Frame :=
    ⟨t.schema.columns.map fun c => (c.name, .ofDomain c.domain), t.rows.map Row.values⟩
  have hrows : frame.rows.map Row.tuple = t.rows := by
    rw [List.map_map]
    exact (List.map_congr_left fun row hrow => (hfits row hrow).tuple_values).trans (List.map_id _)
  have hreadable : frame.readable = (frame.rows, none) := by
    apply Frame.readable_eq
    intro row hrow
    obtain ⟨source, hsource, rfl⟩ := List.mem_map.1 hrow
    exact (hfits source hsource).fitting_values
  have hsettled : Settled ((Table.empty session name t.schema).insertAll t.rows).2 := by
    apply ((Table.ordered_empty session name t.schema).bulk_insertAll ?_ ?_ ?_).settled
    · exact fun row hrow => absurd hrow List.not_mem_nil
    · intro row hrow values hvalid
      obtain ⟨rfl, -⟩ := Schema.validate_eq_ok.1 hvalid
      exact hfree row hrow
    · intro row hrow
      obtain ⟨values, rfl, hfit⟩ := hfits row hrow
      exact Schema.worded_of_validate (Schema.validate_tuple hfit)
  rw [← hrows] at hsettled
  obtain ⟨trace, hmade⟩ := tableOfFrame_run (Frame.schema_eq t.schema _) hreadable hsettled later
  rw [hrows] at hmade
  have hfreeAgain := hrefilled.freeOfNaN hfree
  have hkeyed := hrefilled.inStep.keyed hfreeAgain
  refine ⟨frame, _, trace, Table.toFrame_eq hfits hsingle, hmade, hrefilled.session_eq,
    hrefilled.name_eq, hrefilled.schema_eq, hrefilled.rows_eq,
    fun row hrow => hkeyed.found row hrow (hfreeAgain row hrow), hkeyed.size_eq, ?_⟩
  intro start base offers hoffers
  have hinStep := (inStep_offers (Table.inStep_empty start base t.schema) offers).1
  rw [← hoffers] at hinStep
  exact hrefilled.rows_eq.trans (hinStep.firsts_eq hfree)

/-- A projection with a text twice, of a table with a `NaN` beside its key. -/
def repeatedText : List Call :=
  [.newSession ⟨"/", []⟩ [], .newTable ⟨0⟩ "t" (.schema eachKind),
    .offer ⟨0⟩ (.insert (.tuple [.int 5, .float .quietNaN, .text "a"])),
    .offer ⟨0⟩ (.insert (.tuple [.int 7, .float .zero, .text "a"])),
    .offer ⟨0⟩ (.insert (.tuple [.int 9, .float .zero, .text "é"])),
    .unary (.project ["s"]) ⟨0⟩ none]

theorem tableOfFrame_toFrame_repeated_text :
    let store := runAll repeatedText (initial bareSettings ⟨[]⟩)
    ∃ (t u : Table) (frame : Frame) (trace : List Trace.Entry), store.tables[1]? = some t ∧
      t.rows = [.tuple [.text "a"], .tuple [.text "a"], .tuple [.text "é"]] ∧
      t.toFrame = .ok frame ∧
      tableOfFrame ⟨0⟩ "u" frame (.list t.schema.domains) (.list t.schema.key) store =
        .ok ⟨2⟩ { store with tables := store.tables ++ [u], trace } ∧
      u.rows = [.tuple [.text "a"], .tuple [.text "é"]] ∧ u.index.size = 2 := by
  intro store
  have hstore : Reached store := (Reached.initial _ _).runAll repeatedText
  obtain ⟨t, ht, hrows, hfirst, hdomains, hfree⟩ : ∃ t, store.tables[1]? = some t ∧
      t.rows = [.tuple [.text "a"], .tuple [.text "a"], .tuple [.text "é"]] ∧
      t.firsts = [.tuple [.text "a"], .tuple [.text "é"]] ∧ t.schema.domains = [.string] ∧
      ∀ row ∈ t.rows, (t.keyOf row).hasNaN = false :=
    ⟨_, rfl, rfl, rfl, rfl, by decide +kernel⟩
  have hsecond : store.tables[(⟨1⟩ : TableId).number]? = some t := ht
  have hsingle : .float32 ∉ t.schema.domains := by
    rw [hdomains]
    decide
  obtain ⟨frame, u, trace, hframe, hmade, -, -, -, hkept, -, hsize, -⟩ :=
    tableOfFrame_toFrame hstore hsecond hsingle hfree ⟨0⟩ "u" store
  rw [hfirst] at hkept
  rw [hkept] at hsize
  exact ⟨t, u, frame, trace, ht, hrows, hframe, hmade, hkept, hsize⟩

end Store

end KeyedRelations
