import KeyedRelations.Proofs.Relation.Scans
import KeyedRelations.Relation.Join
import Mathlib.Data.List.ProdSigma
import Mathlib.Data.Multiset.Bind

/-!
# Pairings

A join of rows goes through the pairs of a left and a right row, keeps those that match and puts the rows
of each pair together, the left one in front. Where every pair has an answer, the result is the product
of the rows, filtered and mapped, so laws of joins are laws of products.
-/

namespace KeyedRelations

/-! ## Products -/

section Products

variable {α β : Type}

theorem filter_product_left (p : α → Bool) (as : List α) (bs : List β) :
    as.filter p ×ˢ bs = (as ×ˢ bs).filter fun x => p x.1 := by
  induction as with
  | nil => rfl
  | cons a as ih =>
    rw [List.product_cons, List.filter_append, ← ih, List.filter_map]
    cases ha : p a with
    | false =>
      have hnone : bs.filter ((fun x : α × β => p x.1) ∘ fun b => (a, b)) = [] := by simp [ha]
      rw [List.filter_cons_of_neg (by simp [ha]), hnone]
      rfl
    | true =>
      have hall : bs.filter ((fun x : α × β => p x.1) ∘ fun b => (a, b)) = bs := by simp [ha]
      rw [List.filter_cons_of_pos ha, List.product_cons, hall]

theorem filter_product_right (p : β → Bool) (as : List α) (bs : List β) :
    as ×ˢ bs.filter p = (as ×ˢ bs).filter fun x => p x.2 := by
  induction as with
  | nil => rfl
  | cons a as ih =>
    rw [List.product_cons, List.product_cons, List.filter_append, ← ih, List.filter_map]
    rfl

theorem map_swap_product_perm (as : List α) (bs : List β) :
    ((as ×ˢ bs).map Prod.swap).Perm (bs ×ˢ as) := by
  rw [← Multiset.coe_eq_coe, ← Multiset.map_coe, ← Multiset.coe_product, ← Multiset.coe_product]
  exact Multiset.map_swap_product _ _

end Products

/-! ## Pairs that match -/

/-- The pairs of a left and a right row that match, put together. The left row changes last. -/
def matching (matched : Row × Row → Bool) (combine : Row × Row → Row) (left right : List Row) :
    List Row :=
  ((left ×ˢ right).filter matched).map combine

section Matching

variable {matched matched' : Row × Row → Bool} {combine combine' : Row × Row → Row}
  {left right : List Row}

theorem matching_congr
    (h : ∀ a ∈ left, ∀ b ∈ right, matched (a, b) = matched' (a, b) ∧ combine (a, b) = combine' (a, b)) :
    matching matched combine left right = matching matched' combine' left right := by
  have hpairs : ∀ x ∈ left ×ˢ right, matched x = matched' x ∧ combine x = combine' x := by
    rintro ⟨a, b⟩ hx
    obtain ⟨ha, hb⟩ := List.mem_product.1 hx
    exact h a ha b hb
  unfold matching
  rw [List.filter_congr fun x hx => (hpairs x hx).1]
  exact List.map_congr_left fun x hx => (hpairs x (List.mem_of_mem_filter hx)).2

theorem filter_matching (p : Row → Bool) :
    (matching matched combine left right).filter p =
      matching (fun x => p (combine x) && matched x) combine left right := by
  unfold matching
  rw [List.filter_map, List.filter_filter]
  rfl

theorem matching_filter_left (p : Row → Bool) :
    matching matched combine (left.filter p) right =
      matching (fun x => p x.1 && matched x) combine left right := by
  unfold matching
  rw [filter_product_left, List.filter_filter]
  simp only [Bool.and_comm]

theorem matching_filter_right (p : Row → Bool) :
    matching matched combine left (right.filter p) =
      matching (fun x => p x.2 && matched x) combine left right := by
  unfold matching
  rw [filter_product_right, List.filter_filter]
  simp only [Bool.and_comm]

theorem map_matching (f : Row → Row) :
    (matching matched combine left right).map f = matching matched (f ∘ combine) left right :=
  List.map_map

/-- If all pairs match, the result is the whole product. -/
theorem matching_true :
    matching (fun _ => true) combine left right =
      left.flatMap fun a => right.map fun b => combine (a, b) := by
  unfold matching
  rw [List.filter_true]
  calc (left ×ˢ right).map combine
      = left.flatMap fun a => (right.map fun b => (a, b)).map combine := List.map_flatMap ..
    _ = left.flatMap fun a => right.map fun b => combine (a, b) := by
      simp only [List.map_map, Function.comp_def]

theorem matching_swap_perm :
    (matching matched combine left right).Perm
      (matching (matched ∘ Prod.swap) (combine ∘ Prod.swap) right left) := by
  unfold matching
  refine (((map_swap_product_perm right left).symm.filter matched).map combine).trans ?_
  rw [List.filter_map, List.map_map]

theorem joinRows_eq {partner : Row → Except Fault Partner}
    (h : ∀ a ∈ left, ∃ p, partner a = .ok p ∧ ∀ b ∈ right,
      p b = .ok (if matched (a, b) then some (combine (a, b)) else none)) :
    joinRows partner right left = .ok (matching matched combine left right) := by
  induction left with
  | nil => rfl
  | cons a left ih =>
    obtain ⟨⟨p, hp, hpairs⟩, hrest⟩ := List.forall_mem_cons.1 h
    have hscan : scan p right =
        .ok (((right.map fun b => (a, b)).filter matched).map combine) := by
      rw [scan_congr hpairs, scan_ok, List.filter_map, List.map_map, ← List.filterMap_eq_map,
        List.filterMap_filter]
      rfl
    unfold matching at ih ⊢
    rw [joinRows, hp]
    simp only [bind, Except.bind, hscan, ih hrest]
    rw [List.product_cons, List.filter_append, List.map_append]
    rfl

end Matching

/-! ## Rows put together -/

namespace Row

/-- The values of a row at some positions. -/
def only (positions : List Nat) (row : Row) : Row := .tuple (row.values.pick positions)

/-- A row with another one behind it. -/
def beside (a b : Row) : Row := .tuple (a.values ++ b.values)

/-- Whether two rows have equal values at the paired positions. -/
def agree (pairs : List (Nat × Nat)) (x : Row × Row) : Bool :=
  pairs.all fun (i, j) => (x.1.values.cell i).same (x.2.values.cell j)

variable {domains others : List Domain} {a b row : Row} {i k : Nat}

@[simp]
theorem values_only (positions : List Nat) (row : Row) :
    (row.only positions).values = row.values.pick positions := rfl

@[simp]
theorem values_beside (a b : Row) : (a.beside b).values = a.values ++ b.values := rfl

theorem value_eq_cell (hi : i < row.values.length) : row.value i = .ok (row.values.cell i) := by
  simp [value, Tuple.cell, hi]

theorem cell_beside_left (hi : i < a.values.length) :
    (a.beside b).values.cell i = a.values.cell i :=
  List.getD_append _ _ _ _ hi

theorem cell_beside_right (a b : Row) (k : Nat) :
    (a.beside b).values.cell (a.values.length + k) = b.values.cell k := by
  rw [values_beside, Tuple.cell, Tuple.cell,
    List.getD_append_right _ _ _ _ (Nat.le_add_right _ k), Nat.add_sub_cancel_left]

theorem value_beside_left (hi : i < a.values.length) : (a.beside b).value i = a.value i := by
  have hlt : i < (a.beside b).values.length := by
    rw [values_beside, List.length_append]
    omega
  rw [value_eq_cell hi, value_eq_cell hlt, cell_beside_left hi]

theorem value_beside_right (hk : k < b.values.length) :
    (a.beside b).value (a.values.length + k) = b.value k := by
  have hlt : a.values.length + k < (a.beside b).values.length := by
    rw [values_beside, List.length_append]
    omega
  rw [value_eq_cell hk, value_eq_cell hlt, cell_beside_right]

theorem value_only {positions : List Nat} (hk : positions[k]? = some i) (hi : i < row.values.length) :
    (row.only positions).value k = row.value i := by
  have hlt : k < (row.only positions).values.length := by
    simpa using (List.getElem?_eq_some_iff.1 hk).1
  rw [value_eq_cell hi, value_eq_cell hlt, values_only]
  simp [Tuple.cell, Tuple.pick, hk]

theorem Fits.only_range (h : row.Fits domains) : row.only (List.range domains.length) = row := by
  rw [← h.length_values]
  obtain ⟨t, rfl, -⟩ := h
  exact congrArg tuple t.pick_range

theorem Fits.beside_only_nil (h : row.Fits domains) (b : Row) : row.beside (b.only []) = row := by
  obtain ⟨t, rfl, -⟩ := h
  exact congrArg tuple (List.append_nil t)

theorem Fits.append_eq (ha : a.Fits domains) (hb : b.Fits others) : a.append b = .ok (a.beside b) := by
  obtain ⟨values, rfl, -⟩ := ha
  obtain ⟨more, rfl, -⟩ := hb
  rfl

theorem Fits.value_eq (h : row.Fits domains) {d : Domain} (hi : domains[i]? = some d) :
    row.value i = .ok (row.values.cell i) ∧ d.Holding (row.values.cell i) := by
  obtain ⟨v, hv, hholding⟩ := h.exists_value hi
  have hcell := value_eq_cell (h.length_values ▸ (List.getElem?_eq_some_iff.1 hi).1)
  obtain rfl := Except.ok.inj (hcell.symm.trans hv)
  exact ⟨hcell, hholding⟩

section Schemas

variable {left right : Schema} {i j : List Nat}

theorem Fits.pick_eq (h : row.Fits left.domains) (hi : ∀ n ∈ i, n < left.arity) :
    row.pick i = .ok (row.values.pick i) := by
  obtain ⟨t, rfl, hfit⟩ := h
  have hlength : t.length = left.arity := hfit.length_eq.symm.trans Schema.length_domains
  exact pick_tuple fun n hn => hlength ▸ hi n hn

theorem Fits.holds_eq (h : b.Fits right.domains) (hj : ∀ n ∈ j, n < right.arity)
    (hlength : i.length = j.length) :
    b.holds (a.values.pick i) j = .ok (agree (i.zip j) (a, b)) := by
  obtain ⟨t, rfl, hfit⟩ := h
  have harity : t.length = right.arity := hfit.length_eq.symm.trans Schema.length_domains
  rw [holds_tuple (fun n hn => harity ▸ hj n hn) (by simpa using hlength)]
  unfold Tuple.pick agree
  rw [List.zip_map, List.all_map]
  rfl

end Schemas

end Row

/-- A projection of rows that fit, if its names are found. -/
theorem Relation.Sound.project_eq {r : Relation} (hr : r.Sound) {names : List String}
    {positions : List Nat} {schema : Schema} (hpositions : r.schema.positions names = .ok positions)
    (hschema : r.schema.project names = .ok schema) :
    r.project names = .ok ⟨schema, r.rows.map (Row.only positions)⟩ := by
  have hrows : (r.rows.mapM fun row => do return Row.tuple (← row.pick positions)) =
      .ok (r.rows.map (Row.only positions)) := by
    refine mapM_eq_ok fun row hrow => ?_
    rw [(hr row hrow).pick_eq (Schema.positions_lt hpositions)]
    rfl
  unfold Relation.project
  simp only [bind, Except.bind] at hrows
  simp only [hschema, hpositions, hrows, bind, Except.bind]
  rfl

end KeyedRelations
