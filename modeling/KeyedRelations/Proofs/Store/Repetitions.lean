import KeyedRelations.Proofs.Relation.Combinations
import KeyedRelations.Proofs.Store.WellTyped

/-!
# Repeated rows

A union adds no row twice, and keeps those that its first table repeats. A table repeats rows if it is a
projection, say; a table that was filled by offers does not, as long as no stored key has a `NaN` in it.
-/

namespace KeyedRelations

/-- No two rows at different positions are exactly equal. -/
def NoRepetition (rows : List Row) : Prop :=
  ∀ (i j : Nat) (a b : Row), i ≠ j → rows[i]? = some a → rows[j]? = some b →
    a.equalsExactly b = false

theorem noRepetition_iff {domains : List Domain} {rows : List Row}
    (hrows : ∀ row ∈ rows, row.Fits domains) :
    NoRepetition rows ↔ (rows.map Row.form).Nodup := by
  have hequal : ∀ {i j : Nat} {a b : Row}, rows[i]? = some a → rows[j]? = some b →
      (a.equalsExactly b = true ↔ a.form = b.form) := fun ha hb =>
    (hrows _ (List.mem_of_getElem? ha)).equalsExactly_iff (hrows _ (List.mem_of_getElem? hb))
  rw [List.nodup_iff_getElem?_ne_getElem?]
  simp only [List.getElem?_map, List.length_map]
  constructor
  · intro h i j hij hj heq
    have ha := List.getElem?_eq_getElem (hij.trans hj)
    have hb := List.getElem?_eq_getElem hj
    rw [ha, hb] at heq
    have hsame := (hequal ha hb).2 (Option.some.inj heq)
    exact absurd (hsame.symm.trans (h i j _ _ hij.ne ha hb)) (by decide)
  · intro h i j a b hij ha hb
    rw [Bool.eq_false_iff, Ne, hequal ha hb]
    intro hform
    have heq : rows[i]?.map Row.form = rows[j]?.map Row.form := by
      rw [ha, hb, Option.map_some, Option.map_some, hform]
    rcases lt_or_gt_of_ne hij with hlt | hgt
    · exact h i j hlt (List.getElem?_eq_some_iff.1 hb).1 heq
    · exact h j i hgt (List.getElem?_eq_some_iff.1 ha).1 heq.symm

/-! ## Rows with different keys -/

namespace Fitting

variable {schema : Schema} {t u : Tuple}

theorem holding_cell (ht : Fitting schema.domains t) {i : Nat} (hi : i < schema.domains.length) :
    i < t.length ∧ schema.domains[i].Holding (t.cell i) := by
  have hlt : i < t.length := ht.length_eq ▸ hi
  rw [Tuple.cell_of_lt t hlt]
  exact ⟨hlt, Domain.holding_of_accepts (ht.get hi hlt)⟩

section Forms

variable (ht : Fitting schema.domains t) (hu : Fitting schema.domains u)
  (hform : (Row.tuple t).form = (Row.tuple u).form)

include ht hu hform

theorem same_cell {i : Nat} (hi : i < schema.domains.length) (hnan : (t.cell i).isNaN = false) :
    (t.cell i).same (u.cell i) = true := by
  obtain ⟨hit, hv⟩ := ht.holding_cell hi
  obtain ⟨hiu, hw⟩ := hu.holding_cell hi
  have hcells : (t.cell i).form = (u.cell i).form := by
    have hcell := Row.getElem?_form (Row.value_tuple hiu)
    rw [← hform, Row.getElem?_form (Row.value_tuple hit)] at hcell
    exact Option.some.inj hcell
  have hequal := (Value.equalsExactly_iff hv hw).2 hcells
  simpa [Value.equalsExactly, hnan] using hequal

/-- Rows that are exactly equal have the same values at any positions, as long as none of them is a
`NaN`. -/
theorem same_pick {positions : List Nat} (hpositions : ∀ i ∈ positions, i < schema.arity)
    (hnan : Key.hasNaN (t.pick positions) = false) :
    Key.order.same (t.pick positions) (u.pick positions) = true := by
  induction positions with
  | nil => rfl
  | cons i positions ih =>
    obtain ⟨hi, hrest⟩ := List.forall_mem_cons.1 hpositions
    rw [← Schema.length_domains] at hi
    obtain ⟨hhead, htail⟩ : (t.cell i).isNaN = false ∧ Key.hasNaN (t.pick positions) = false :=
      Bool.or_eq_false_iff.1 hnan
    change Key.order.same (t.cell i :: t.pick positions) (u.cell i :: u.pick positions) = true
    rw [Key.same_cons (ht.holding_cell hi).2, ht.same_cell hu hform hi hhead, ih hrest htail]
    rfl

end Forms

end Fitting

theorem Table.InStep.nodup_forms {t : Table} (ht : t.InStep) (hfree : t.FreeOfNaN) :
    (t.rows.map Row.form).Nodup := by
  rw [List.Nodup, List.pairwise_map]
  refine (ht.unique hfree).imp_of_mem fun {a b} ha hb hdifferent hform => ?_
  have hsame := (ht.fitting a ha).same_pick (ht.fitting b hb) hform
    (fun i hi => Schema.keyPositions_lt hi) (hfree a ha)
  exact absurd (hdifferent.symm.trans hsame) (by decide)

namespace Store

/-- After any calls, the union of two tables of the same domains has the rows of the first and behind
them rows of the second in their order, of which none is exactly equal to another row of the union. So it repeats no row just if the
first table repeats none, as is the case for a table that was filled by offers and has no `NaN` in its key
columns. -/
theorem noRepetition_union_iff (settings : Settings) (files : FileTree) (calls : List Call)
    {t u : Table} (ht : t ∈ (runAll calls (initial settings files)).tables)
    (hu : u ∈ (runAll calls (initial settings files)).tables)
    (h : t.schema.domains = u.schema.domains) :
    ∃ r, BinaryOperation.union.result t u = .ok r ∧
      (∃ added, added.Sublist u.rows ∧ r.rows = t.rows ++ added) ∧
      (∀ (i j : Nat) (a b : Row), i ≠ j → r.rows[i]? = some a → r.rows[j]? = some b →
        a.equalsExactly b = true → i < t.rows.length ∧ j < t.rows.length) ∧
      (NoRepetition r.rows ↔ NoRepetition t.rows) ∧
      ∀ (session : SessionId) (name : String) (schema : Schema) (offers : List Offer),
        offers.foldl Table.offer (Table.empty session name schema) = t → t.FreeOfNaN →
          NoRepetition r.rows := by
  have hstore : Reached (runAll calls (initial settings files)) :=
    (Reached.initial settings files).runAll calls
  have htSound := (hstore.forall_tables Table.kept_sound t ht).rows
  have huSound := (hstore.forall_tables Table.kept_sound u hu).rows
  have hunion := htSound.union_eq huSound h
  have hfits := htSound.union huSound hunion
  have hiff : NoRepetition (merge t.rows u.rows) ↔ NoRepetition t.rows := by
    rw [noRepetition_iff hfits, noRepetition_iff htSound, nodup_merge]
  obtain ⟨added, hmerge, hsub, -⟩ := exists_added t.rows u.rows
  refine ⟨_, hunion, ⟨added, hsub, hmerge⟩, ?_, hiff, ?_⟩
  · intro i j a b hij ha hb hequal
    have hform := ((hfits a (List.mem_of_getElem? ha)).equalsExactly_iff
      (hfits b (List.mem_of_getElem? hb))).1 hequal
    rcases lt_or_gt_of_ne hij with hlt | hgt
    · have hj := lt_length_of_repeated hlt ha hb hform
      exact ⟨hlt.trans hj, hj⟩
    · have hi := lt_length_of_repeated hgt hb ha hform.symm
      exact ⟨hi, hgt.trans hi⟩
  · rintro session name schema offers rfl hfree
    have hstep := (inStep_offers (Table.inStep_empty session name schema) offers).1
    exact hiff.2 ((noRepetition_iff htSound).2 (hstep.nodup_forms hfree))

/-- Two tables with a common row, in which a `NaN` stands outside the key. -/
def overlapping : List Call :=
  [.newSession ⟨"/", []⟩ [], .newTable ⟨0⟩ "t" (.schema eachKind),
    .newTable ⟨0⟩ "u" (.schema eachKind),
    .offer ⟨0⟩ (.insert (.tuple [.int 5, .float .quietNaN, .text "a"])),
    .offer ⟨0⟩ (.insert (.tuple [.int 7, .float .zero, .text "a"])),
    .offer ⟨1⟩ (.insert (.tuple [.int 5, .float .quietNaN, .text "a"])),
    .offer ⟨1⟩ (.insert (.tuple [.int 7, .float .quietNaN, .text "a"]))]

theorem noRepetition_union_iff_overlapping :
    let store := runAll overlapping (initial bareSettings ⟨[]⟩)
    ∃ t ∈ store.tables, ∃ u ∈ store.tables, t.rows.length = 2 ∧ t.FreeOfNaN ∧
      t.schema.domains = u.schema.domains ∧
      ∃ r, BinaryOperation.union.result t u = .ok r ∧
        (∃ added, added.Sublist u.rows ∧ r.rows = t.rows ++ added) ∧ NoRepetition r.rows := by
  intro store
  obtain ⟨t, u, htables, ht, hu⟩ : ∃ t u, store.tables = [t, u] ∧
      [Offer.insert (.tuple [.int 5, .float .quietNaN, .text "a"]),
        .insert (.tuple [.int 7, .float .zero, .text "a"])].foldl Table.offer
          (Table.empty ⟨0⟩ "t" eachKind) = t ∧
      u.schema = eachKind :=
    ⟨_, _, rfl, rfl, rfl⟩
  have hmem : t ∈ store.tables ∧ u ∈ store.tables := by simp [htables]
  have hschema : t.schema = eachKind := ht ▸ rfl
  have hrows : t.rows = [.tuple [.int 5, .float .quietNaN, .text "a"],
      .tuple [.int 7, .float .zero, .text "a"]] := ht ▸ rfl
  have hfree : t.FreeOfNaN := by
    unfold Table.FreeOfNaN Table.keyOf
    rw [hrows, hschema]
    decide
  have hdomains : t.schema.domains = u.schema.domains := by rw [hschema, hu]
  obtain ⟨r, hunion, hadded, -, -, hfilled⟩ :=
    noRepetition_union_iff _ _ overlapping hmem.1 hmem.2 hdomains
  exact ⟨t, hmem.1, u, hmem.2, hrows ▸ rfl, hfree, hdomains, r, hunion, hadded,
    hfilled _ _ _ _ ht hfree⟩

/-- A table of two rows and its projection onto a column in which they agree. -/
def projected : List Call :=
  [.newSession ⟨"/", []⟩ [], .newTable ⟨0⟩ "t" (.schema eachKind),
    .offer ⟨0⟩ (.insert (.tuple [.int 1, .float .zero, .text "a"])),
    .offer ⟨0⟩ (.insert (.tuple [.int 2, .float .zero, .text "a"])),
    .unary (.project ["s"]) ⟨0⟩ none]

/-- The union of a projection with itself repeats the rows that the projection repeats. -/
theorem repetition_of_projection :
    let store := runAll projected (initial bareSettings ⟨[]⟩)
    ∃ t ∈ store.tables, ∃ u ∈ store.tables, t.schema.domains = u.schema.domains ∧
      ∃ r, BinaryOperation.union.result t u = .ok r ∧ ¬NoRepetition r.rows := by
  intro store
  have hstore : Reached store := (Reached.initial _ _).runAll projected
  obtain ⟨t, p, htables, hrows⟩ : ∃ t p, store.tables = [t, p] ∧
      p.rows = [.tuple [.text "a"], .tuple [.text "a"]] := ⟨_, _, rfl, rfl⟩
  have hmem : p ∈ store.tables := by simp [htables]
  have hsound := (hstore.forall_tables Table.kept_sound p hmem).rows
  have hunion := hsound.union_eq hsound rfl
  rw [merge_self] at hunion
  refine ⟨p, hmem, p, hmem, rfl, _, hunion, fun hdistinct => ?_⟩
  have hunequal := hdistinct 0 1 (.tuple [.text "a"]) (.tuple [.text "a"]) (by decide)
    (by rw [hrows]; rfl) (by rw [hrows]; rfl)
  exact absurd hunequal (by decide)

end Store

end KeyedRelations
