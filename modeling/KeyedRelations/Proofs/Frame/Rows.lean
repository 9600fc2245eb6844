import KeyedRelations.Frame
import KeyedRelations.Proofs.Relation.Scans

/-!
# Frames of rows that fit

A column whose type is that of a domain takes the values of the domain as they are, as long as it does
not round them. So the frame of rows that fit hands the same rows out again, and has the schema that
its columns have come from.
-/

namespace KeyedRelations

variable {d : Domain} {v : Value} {domains : List Domain}

/-! ## Values -/

namespace FrameType

theorem ofDomain_of_accepts_int {n : Int} (h : d.accepts (.int n) = true) :
    ∃ width, ofDomain d = .integer true width ∧ holdsInteger true width n = true := by
  cases d <;> simp [Domain.accepts, Domain.bits?] at h <;>
    exact ⟨_, rfl, by simp [holdsInteger, h]⟩

theorem convert?_int {width : Nat} {n : Int} (h : holdsInteger true width n = true) :
    (integer true width).convert? (.int n) = some (.int n) := by
  have hconvert : (integer true width).convert? (.int n) =
      if holdsInteger true width n then some (.int n) else none := rfl
  rw [hconvert, if_pos h]

theorem convert_ofDomain (hd : d ≠ .float32) (h : d.accepts v = true) :
    (ofDomain d).convert v = .ok v := by
  have hconvert : (ofDomain d).convert? v = some v := by
    cases Domain.holding_of_accepts h with
    | whole _ _ _ =>
      obtain ⟨width, hwidth, hn⟩ := ofDomain_of_accepts_int h
      rw [hwidth, convert?_int hn]
    | double _ =>
      cases d <;> simp [Domain.accepts] at h hd
      rfl
    | text kind => cases d <;> first | rfl | cases kind
  unfold convert
  rw [hconvert]
  rfl

end FrameType

theorem Value.exists_sample (h : d.accepts v = true) : ∃ type, v.sample = .ok type := by
  cases Domain.holding_of_accepts h with
  | @whole n _ low high =>
    have hbound : ((twoTo 63 : Nat) : Int) = 2 ^ 63 := rfl
    have hn : FrameType.ofInteger? n = some (.integer true 64) := by
      unfold FrameType.ofInteger?
      rw [List.find?_cons_of_pos]
      · rfl
      · simp [FrameType.holdsInteger, hbound]
        omega
    refine ⟨.integer true 64, ?_⟩
    rw [sample, hn]
  | double _ => exact ⟨_, rfl⟩
  | text _ => exact ⟨_, rfl⟩

theorem Fitting.exists_sampleAll {values : Tuple} (h : Fitting domains values) :
    ∃ types, Value.sampleAll values = .ok types := by
  induction h with
  | nil => exact ⟨[], rfl⟩
  | cons hv _ ih =>
    obtain ⟨type, htype⟩ := Value.exists_sample hv
    obtain ⟨types, htypes⟩ := ih
    refine ⟨type :: types, ?_⟩
    rw [Value.sampleAll, htype, htypes]
    rfl

/-! ## Rows -/

theorem Fitting.mapM_convert {columns : List Column} {values : Tuple}
    (hfit : Fitting (columns.map (·.domain)) values) (hsingle : .float32 ∉ columns.map (·.domain)) :
    ((columns.map fun c => (c.name, FrameType.ofDomain c.domain)).zip values).mapM
      (fun (column, v) => column.2.convert v) = .ok values := by
  induction columns generalizing values with
  | nil =>
    cases hfit
    rfl
  | cons c columns ih =>
    cases hfit with
    | cons hv hrest =>
      obtain ⟨hc, hcolumns⟩ := not_or.1 (mt List.mem_cons.2 hsingle)
      have hfirst := FrameType.convert_ofDomain (Ne.symm hc) hv
      rw [List.map_cons, List.zip_cons_cons, List.mapM_cons, ih hrest hcolumns]
      dsimp only at hfirst ⊢
      rw [hfirst]
      rfl

namespace Frame

variable {rows : List Row}

theorem tuples_eq (h : ∀ row ∈ rows, row.Fits domains) : tuples rows = .ok (rows.map Row.values) := by
  apply mapM_eq_ok
  intro row hrow
  obtain ⟨values, rfl, hfit⟩ := h row hrow
  obtain ⟨types, htypes⟩ := hfit.exists_sampleAll
  dsimp only
  rw [htypes]
  rfl

theorem checkLengths_eq {n : Nat} {rows : List Tuple} (h : ∀ row ∈ rows, row.length = n) :
    checkLengths n rows = .ok () := by
  unfold checkLengths
  split
  · rename_i row i hfound
    have hrow := h row (List.fst_mem_of_mem_zipIdx (List.mem_of_find?_eq_some hfound))
    have hother := List.find?_some hfound
    simp [hrow] at hother
  · rfl

theorem ofRows_eq {columns : List Column} (hsingle : .float32 ∉ columns.map (·.domain))
    (hrows : ∀ row ∈ rows, row.Fits (columns.map (·.domain))) :
    ofRows (columns.map fun c => (c.name, .ofDomain c.domain)) rows =
      .ok ⟨columns.map fun c => (c.name, .ofDomain c.domain), rows.map Row.values⟩ := by
  have hlength : ∀ row ∈ rows.map Row.values, row.length = columns.length := by
    intro row hrow
    obtain ⟨source, hsource, rfl⟩ := List.mem_map.1 hrow
    rw [(hrows source hsource).length_values, List.length_map]
  have hconverted : (rows.map Row.values).mapM (fun row =>
      ((columns.map fun c => (c.name, FrameType.ofDomain c.domain)).zip row).mapM
        fun (column, v) => column.2.convert v) = .ok (rows.map Row.values) := by
    refine (mapM_eq_ok (g := id) fun row hrow => ?_).trans (by rw [List.map_id])
    obtain ⟨source, hsource, rfl⟩ := List.mem_map.1 hrow
    obtain ⟨values, rfl, hfit⟩ := hrows source hsource
    exact hfit.mapM_convert hsingle
  have hcells : (rows.map Row.values).map (fun row =>
      (List.range (columns.map fun c => (c.name, FrameType.ofDomain c.domain)).length).map
        (Tuple.cell row)) = rows.map Row.values := by
    refine (List.map_congr_left fun row hrow => ?_).trans (List.map_id _)
    rw [List.length_map, ← hlength row hrow]
    exact Tuple.pick_range row
  cases rows with
  | nil => rfl
  | cons first rest =>
    obtain ⟨values, rfl, hfit⟩ := hrows first List.mem_cons_self
    have hwidth : values.isEmpty ∨
        values.length = (columns.map fun c => (c.name, FrameType.ofDomain c.domain)).length := by
      right
      rw [List.length_map]
      exact hlength values List.mem_cons_self
    have hchecked : checkLengths ((((Row.tuple values :: rest).map Row.values).head?.map
        (·.length)).getD 0) ((Row.tuple values :: rest).map Row.values) = .ok () :=
      checkLengths_eq fun row hrow => (hlength row hrow).trans (hlength values List.mem_cons_self).symm
    unfold ofRows
    dsimp only
    rw [if_pos hwidth, pure_bind, tuples_eq hrows]
    dsimp only [bind, Except.bind]
    rw [hchecked]
    dsimp only [Except.mapError]
    rw [hconverted]
    dsimp only
    rw [hcells]
    rfl

/-- Values of domains have no years. -/
theorem farYear?_eq_none {values : Tuple} (h : Fitting domains values) : farYear? values = none := by
  induction h with
  | nil => rfl
  | cons hv _ ih =>
    unfold farYear? at ih ⊢
    cases Domain.holding_of_accepts hv with
    | whole _ _ _ => exact ih
    | double _ => exact ih
    | text _ => exact ih

theorem readable_eq {columns : List (String × FrameType)} {rows : List Tuple}
    (hrows : ∀ row ∈ rows, Fitting domains row) :
    readable ⟨columns, rows⟩ = (rows, none) := by
  unfold readable
  split
  · rename_i i year hfound
    obtain ⟨⟨row, j⟩, hrow, hyear⟩ := List.exists_of_findSome?_eq_some hfound
    simp [farYear?_eq_none (hrows row (List.fst_mem_of_mem_zipIdx hrow))] at hyear
  · rfl

theorem schema_eq (schema : Schema) (rows : List Tuple) :
    Frame.schema ⟨schema.columns.map fun c => (c.name, .ofDomain c.domain), rows⟩ schema.domains
      schema.key = .ok schema := by
  have hnames : (schema.columns.map fun c => (c.name, FrameType.ofDomain c.domain)).map (·.1) =
      schema.attributes := by
    simp [Schema.attributes]
  have hcolumns : schema.attributes.zipWith Column.mk schema.domains = schema.columns := by
    simp [Schema.attributes, Schema.domains, List.zipWith_map]
  have hlength : schema.domains.length = schema.attributes.length := by
    simp [Schema.attributes, Schema.domains]
  unfold Frame.schema
  dsimp only
  rw [hnames, if_pos hlength, hcolumns]
  exact schema.wellFormed.define_eq

end Frame

theorem Table.toFrame_eq {t : Table} (hrows : ∀ row ∈ t.rows, row.Fits t.schema.domains)
    (hsingle : .float32 ∉ t.schema.domains) :
    t.toFrame = .ok ⟨t.schema.columns.map fun c => (c.name, .ofDomain c.domain),
      t.rows.map Row.values⟩ :=
  Frame.ofRows_eq hsingle hrows

end KeyedRelations
