import KeyedRelations.Proofs.Relation.ExactForms
import KeyedRelations.Relation.Combine

/-!
# Merging rows

A union puts the rows of its second relation behind those of the first one by one, each unless its form
has occurred before; a difference leaves out the rows whose forms occur in the second relation. Both
depend on the second list through the forms in it and the order of their first occurrences.
-/

namespace KeyedRelations

/-- Rows with one more at the end, unless its form is among theirs. -/
def addNew (rows : List Row) (row : Row) : List Row :=
  if row.form ∈ rows.map Row.form then rows else rows ++ [row]

/-- Rows with those of a second list behind them, of each form only the first. -/
def merge (rows others : List Row) : List Row := others.foldl addNew rows

/-- The rows whose forms do not occur in a second list. -/
def without (rows others : List Row) : List Row :=
  rows.filter fun row => row.form ∉ others.map Row.form

variable {rows others more : List Row} {row : Row} {f : ExactRow}

/-! ## One row more -/

theorem addNew_of_mem (h : row.form ∈ rows.map Row.form) : addNew rows row = rows := if_pos h

theorem addNew_of_notMem (h : row.form ∉ rows.map Row.form) : addNew rows row = rows ++ [row] :=
  if_neg h

theorem mem_map_addNew :
    f ∈ (addNew rows row).map Row.form ↔ f ∈ rows.map Row.form ∨ f = row.form := by
  by_cases h : row.form ∈ rows.map Row.form
  · rw [addNew_of_mem h]
    exact ⟨.inl, Or.rec id fun heq => heq ▸ h⟩
  · rw [addNew_of_notMem h, List.map_append, List.mem_append, List.map_singleton, List.mem_singleton]

theorem without_append (rows others more : List Row) :
    without (rows ++ others) more = without rows more ++ without others more :=
  List.filter_append _ _

theorem without_singleton_of_mem (h : row.form ∈ rows.map Row.form) : without [row] rows = [] :=
  List.filter_cons_of_neg (by simpa using h)

theorem without_singleton_of_notMem (h : row.form ∉ rows.map Row.form) :
    without [row] rows = [row] :=
  List.filter_cons_of_pos (by simpa using h)

theorem merge_append (rows others more : List Row) :
    merge rows (others ++ more) = merge (merge rows others) more :=
  List.foldl_append

theorem merge_concat (rows others : List Row) (row : Row) :
    merge rows (others ++ [row]) = addNew (merge rows others) row :=
  List.foldl_append

theorem mem_map_merge :
    f ∈ (merge rows others).map Row.form ↔ f ∈ rows.map Row.form ∨ f ∈ others.map Row.form := by
  induction others using List.reverseRecOn with
  | nil => simp [merge]
  | append_singleton others row ih =>
    rw [merge_concat, mem_map_addNew, ih, List.map_append, List.mem_append, List.map_singleton,
      List.mem_singleton, or_assoc]

/-! ## Laws of merging -/

theorem merge_of_subset (h : ∀ row ∈ others, row.form ∈ rows.map Row.form) :
    merge rows others = rows := by
  induction others with
  | nil => rfl
  | cons row others ih =>
    obtain ⟨hrow, hothers⟩ := List.forall_mem_cons.1 h
    change merge (addNew rows row) others = rows
    rw [addNew_of_mem hrow, ih hothers]

theorem merge_self (rows : List Row) : merge rows rows = rows :=
  merge_of_subset fun _ hrow => List.mem_map_of_mem hrow

theorem merge_merge (rows others more : List Row) :
    merge rows (merge others more) = merge (merge rows others) more := by
  induction more using List.reverseRecOn with
  | nil => rfl
  | append_singleton more row ih =>
    rw [merge_concat, merge_concat, ← ih]
    by_cases h : row.form ∈ (merge others more).map Row.form
    · rw [addNew_of_mem h, addNew_of_mem (mem_map_merge.2 (.inr h))]
    · rw [addNew_of_notMem h, merge_concat]

theorem merge_without (rows others : List Row) :
    merge rows (without others rows) = merge rows others := by
  induction others using List.reverseRecOn with
  | nil => rfl
  | append_singleton others row ih =>
    rw [without_append, merge_append, ih, merge_concat]
    by_cases h : row.form ∈ rows.map Row.form
    · rw [without_singleton_of_mem h, addNew_of_mem (mem_map_merge.2 (.inl h))]
      rfl
    · rw [without_singleton_of_notMem h]
      rfl

theorem without_merge_of_subset (h : ∀ row ∈ others, row.form ∈ more.map Row.form) :
    without (merge rows others) more = without rows more := by
  induction others using List.reverseRecOn with
  | nil => rfl
  | append_singleton others row ih =>
    obtain ⟨hothers, hrow⟩ := List.forall_mem_append.1 h
    rw [merge_concat]
    by_cases hmem : row.form ∈ (merge rows others).map Row.form
    · rw [addNew_of_mem hmem, ih hothers]
    · rw [addNew_of_notMem hmem, without_append, ih hothers,
        without_singleton_of_mem (hrow row List.mem_cons_self), List.append_nil]

theorem without_without (rows others more : List Row) :
    without (without rows others) more = without rows (merge others more) := by
  unfold without
  rw [List.filter_filter]
  refine List.filter_congr fun row _ => ?_
  rw [← Bool.decide_and, decide_eq_decide, mem_map_merge, not_or]
  exact and_comm

theorem without_comm (rows others more : List Row) :
    without (without rows others) more = without (without rows more) others :=
  List.filter_comm _ _ rows

/-! ## Merging and choosing -/

theorem mem_or_mem_of_mem_merge (h : row ∈ merge rows others) : row ∈ rows ∨ row ∈ others := by
  induction others using List.reverseRecOn with
  | nil => exact .inl h
  | append_singleton others other ih =>
    rw [merge_concat] at h
    rw [List.mem_append, List.mem_singleton, ← or_assoc]
    by_cases hmem : other.form ∈ (merge rows others).map Row.form
    · rw [addNew_of_mem hmem] at h
      exact .inl (ih h)
    · rw [addNew_of_notMem hmem, List.mem_append, List.mem_singleton] at h
      exact h.imp_left ih

/-- Rows of one form are chosen alike. -/
def RespectsForms (p : Row → Bool) (rows : List Row) : Prop :=
  ∀ a ∈ rows, ∀ b ∈ rows, a.form = b.form → p a = p b

theorem RespectsForms.mono {p : Row → Bool} (h : RespectsForms p more) (hsub : rows ⊆ more) :
    RespectsForms p rows :=
  fun a ha b hb => h a (hsub ha) b (hsub hb)

/-- A form is left among the chosen rows if it is the form of a row that is chosen. -/
theorem RespectsForms.mem_map_filter {p : Row → Bool} (h : RespectsForms p (row :: rows))
    (hrow : p row = true) :
    row.form ∈ (rows.filter p).map Row.form ↔ row.form ∈ rows.map Row.form := by
  simp only [List.mem_map, List.mem_filter]
  constructor
  · rintro ⟨a, ⟨ha, -⟩, heq⟩
    exact ⟨a, ha, heq⟩
  · rintro ⟨a, ha, heq⟩
    have hpa := h a (List.mem_cons_of_mem row ha) row List.mem_cons_self heq
    exact ⟨a, ⟨ha, hpa.trans hrow⟩, heq⟩

theorem filter_merge {p : Row → Bool} (hp : RespectsForms p (rows ++ others)) :
    (merge rows others).filter p = merge (rows.filter p) (others.filter p) := by
  induction others using List.reverseRecOn with
  | nil => rfl
  | append_singleton others row ih =>
    have hsub : rows ++ others ⊆ rows ++ (others ++ [row]) := by
      simp [← List.append_assoc]
    rw [merge_concat, List.filter_append, merge_append, ← ih (hp.mono hsub)]
    cases hrow : p row with
    | false =>
      have hnone : [row].filter p = [] := by simp [hrow]
      rw [hnone]
      change _ = (merge rows others).filter p
      by_cases hmem : row.form ∈ (merge rows others).map Row.form
      · rw [addNew_of_mem hmem]
      · rw [addNew_of_notMem hmem, List.filter_append, hnone, List.append_nil]
    | true =>
      have hself : [row].filter p = [row] := by simp [hrow]
      have hmerged : RespectsForms p (row :: merge rows others) := by
        refine hp.mono (List.cons_subset.2 ⟨by simp, fun a ha => ?_⟩)
        exact hsub (List.mem_append.2 (mem_or_mem_of_mem_merge ha))
      rw [hself]
      change _ = addNew ((merge rows others).filter p) row
      by_cases hmem : row.form ∈ (merge rows others).map Row.form
      · rw [addNew_of_mem hmem, addNew_of_mem ((hmerged.mem_map_filter hrow).2 hmem)]
      · rw [addNew_of_notMem hmem, List.filter_append, hself,
          addNew_of_notMem (mt (hmerged.mem_map_filter hrow).1 hmem)]

theorem filter_without {p : Row → Bool} (hp : RespectsForms p (rows ++ others)) :
    (without rows others).filter p = without (rows.filter p) (others.filter p) := by
  unfold without
  rw [List.filter_filter, List.filter_filter]
  refine List.filter_congr fun row hrow => ?_
  cases hchosen : p row with
  | false => simp
  | true =>
    have hothers : RespectsForms p (row :: others) := by
      refine hp.mono (List.cons_subset.2 ⟨List.mem_append_left _ hrow, ?_⟩)
      exact List.subset_append_right _ _
    rw [Bool.true_and, Bool.and_true, decide_eq_decide, hothers.mem_map_filter hchosen]

/-! ## Repetitions -/

/-- What a merge adds are some of the other rows in their order, with no form twice and no form that was
there before. -/
theorem exists_added (rows others : List Row) :
    ∃ added, merge rows others = rows ++ added ∧ added.Sublist others ∧
      (added.map Row.form).Nodup ∧ ∀ row ∈ added, row.form ∉ rows.map Row.form := by
  induction others using List.reverseRecOn with
  | nil => exact ⟨[], (List.append_nil rows).symm, .slnil, List.nodup_nil, by simp⟩
  | append_singleton others row ih =>
    obtain ⟨added, hmerge, hsub, hnodup, hnew⟩ := ih
    rw [merge_concat, hmerge]
    by_cases hmem : row.form ∈ (rows ++ added).map Row.form
    · rw [addNew_of_mem hmem]
      exact ⟨added, rfl, hsub.trans (List.sublist_append_left others [row]), hnodup, hnew⟩
    · rw [addNew_of_notMem hmem, List.append_assoc]
      rw [List.map_append, List.mem_append, not_or] at hmem
      refine ⟨added ++ [row], rfl, hsub.append_right [row], ?_,
        List.forall_mem_append.2 ⟨hnew, by simpa using hmem.1⟩⟩
      rw [List.map_append, List.map_singleton]
      exact List.nodup_append_comm.1 (List.nodup_cons.2 ⟨hmem.2, hnodup⟩)

theorem nodup_merge (rows others : List Row) :
    ((merge rows others).map Row.form).Nodup ↔ (rows.map Row.form).Nodup := by
  obtain ⟨added, hmerge, -, hnodup, hnew⟩ := exists_added rows others
  rw [hmerge, List.map_append, List.nodup_append]
  refine ⟨And.left, fun hrows => ⟨hrows, hnodup, fun f hf g hg heq => ?_⟩⟩
  obtain ⟨row, hrow, rfl⟩ := List.mem_map.1 hg
  exact hnew row hrow (heq ▸ hf)

/-- The second of two rows of one form was there before the merge. -/
theorem lt_length_of_repeated {i j : Nat} {a b : Row} (hij : i < j)
    (ha : (merge rows others)[i]? = some a) (hb : (merge rows others)[j]? = some b)
    (hform : a.form = b.form) : j < rows.length := by
  obtain ⟨added, hmerge, -, hnodup, hnew⟩ := exists_added rows others
  by_contra hlast
  rw [hmerge, List.getElem?_append_right (not_lt.1 hlast)] at hb
  rw [hmerge] at ha
  rcases lt_or_ge i rows.length with hfirst | hfirst
  · rw [List.getElem?_append_left hfirst] at ha
    exact hnew b (List.mem_of_getElem? hb) (hform ▸ List.mem_map_of_mem (List.mem_of_getElem? ha))
  · rw [List.getElem?_append_right hfirst] at ha
    have hlt : j - rows.length < (added.map Row.form).length := by
      simpa using (List.getElem?_eq_some_iff.1 hb).1
    have hbefore : i - rows.length < j - rows.length := Nat.sub_lt_sub_right hfirst hij
    refine List.nodup_iff_getElem?_ne_getElem?.1 hnodup _ _ hbefore hlt ?_
    rw [List.getElem?_map, List.getElem?_map, ha, hb, Option.map_some, Option.map_some, hform]

end KeyedRelations
