import KeyedRelations.Proofs.Condition.Reading
import KeyedRelations.Proofs.Relation.Joins

/-!
# Joins the other way round

A join with its sides exchanged goes through the same pairs in another order. Equality is symmetric, and
a comparison has the answer of the mirrored one, so the same pairs match, and the rows are those of the
join with both parts exchanged.
-/

namespace KeyedRelations

/-! ## Rows the other way round -/

namespace Row

/-- A row with its first values behind the others. -/
def turned (n : Nat) (row : Row) : Row := .tuple (row.values.drop n ++ row.values.take n)

variable {left right : Schema} {a b : Row}

theorem Fits.turned_beside (ha : a.Fits left.domains) : turned left.arity (a.beside b) = b.beside a := by
  have hlength : a.values.length = left.arity := ha.length_values.trans Schema.length_domains
  unfold turned
  rw [values_beside, ← hlength, List.take_left, List.drop_left]
  rfl

theorem Fits.exists_holding_cell (h : a.Fits left.domains) {i : Nat} (hi : i < left.arity) :
    ∃ d : Domain, d.Holding (a.values.cell i) := by
  have hlt : i < left.domains.length := Schema.length_domains.symm ▸ hi
  exact ⟨_, (h.value_eq (List.getElem?_eq_getElem hlt)).2⟩

/-- Whether two rows agree does not depend on which of them is asked first. -/
theorem Fits.agree_swap (ha : a.Fits left.domains) (hb : b.Fits right.domains) {i j : List Nat}
    (hi : ∀ n ∈ i, n < left.arity) (hj : ∀ n ∈ j, n < right.arity) :
    agree (i.zip j) (a, b) = agree (j.zip i) (b, a) := by
  unfold agree
  rw [← List.zip_swap i j, List.all_map, Bool.eq_iff_iff, List.all_eq_true, List.all_eq_true]
  refine forall₂_congr fun pair hpair => ?_
  obtain ⟨m, n⟩ := pair
  obtain ⟨d, hv⟩ := ha.exists_holding_cell (hi m (List.of_mem_zip hpair).1)
  obtain ⟨e, hw⟩ := hb.exists_holding_cell (hj n (List.of_mem_zip hpair).2)
  exact Eq.congr_left (Value.same_comm_of_holding hv hw)

end Row

/-- Two computations fail both, or they give relations of which each has the rows of the other with the
first values behind the others, any number of times alike. -/
inductive Mirrored (n : Nat) : Except Fault Relation → Except Fault Relation → Prop
  | refused (fault other : Fault) : Mirrored n (.error fault) (.error other)
  | turned (joined other : Relation) (perm : (joined.rows.map (Row.turned n)).Perm other.rows) :
    Mirrored n (.ok joined) (.ok other)

theorem Mirrored.exists_turned {n : Nat} {joined : Relation} {result : Except Fault Relation}
    (h : Mirrored n (.ok joined) result) :
    ∃ other, result = .ok other ∧ (joined.rows.map (Row.turned n)).Perm other.rows := by
  cases h with
  | turned _ other perm => exact ⟨other, rfl, perm⟩

namespace Relation

section Turned

variable {r s : Relation} (hr : r.Sound) (hs : s.Sound)

include hr

theorem Sound.mirrored_matching {matched matched' : Row × Row → Bool} {joined other : Schema}
    (h : ∀ a ∈ r.rows, ∀ b ∈ s.rows, matched (a, b) = matched' (b, a)) :
    Mirrored r.schema.arity
      (.ok ⟨joined, matching matched (fun x => x.1.beside x.2) r.rows s.rows⟩)
      (.ok ⟨other, matching matched' (fun x => x.1.beside x.2) s.rows r.rows⟩) := by
  refine .turned _ _ ?_
  rw [map_matching]
  refine matching_swap_perm.trans (List.Perm.of_eq ?_)
  exact matching_congr fun b hb a ha => ⟨h a ha b hb, (hr a ha).turned_beside⟩

include hs

theorem Sound.mirrored_of_positions {left right : List String} {i j : List Nat}
    (hlength : left.length = right.length) (hi : r.schema.positions left = .ok i)
    (hj : s.schema.positions right = .ok j) :
    Mirrored r.schema.arity (r.equiJoin s left right) (s.equiJoin r right left) := by
  obtain ⟨joined, hjoined⟩ := r.exists_joinSchema s
  obtain ⟨other, hother⟩ := s.exists_joinSchema r
  rw [hr.equiJoin_eq hs hlength hi hj hjoined, hs.equiJoin_eq hr hlength.symm hj hi hother]
  exact hr.mirrored_matching fun a ha b hb =>
    (hr a ha).agree_swap (hs b hb) (Schema.positions_lt hi) (Schema.positions_lt hj)

theorem Sound.mirrored_equiJoin (left right : List String) :
    Mirrored r.schema.arity (r.equiJoin s left right) (s.equiJoin r right left) := by
  rcases Join.equi_checks r.schema s.schema left right with
    ⟨fault, -, hrefused⟩ | ⟨i, j, hlength, hi, hj⟩
  · rcases Join.equi_checks s.schema r.schema right left with
      ⟨fault', -, hrefused'⟩ | ⟨j, i, hlength, hj, hi⟩
    · have hfault : r.equiJoin s left right = .error fault := hrefused r.rows s.rows
      have hfault' : s.equiJoin r right left = .error fault' := hrefused' s.rows r.rows
      rw [hfault, hfault']
      exact .refused fault fault'
    · exact hr.mirrored_of_positions hs hlength.symm hi hj
  · exact hr.mirrored_of_positions hs hlength hi hj

variable {condition mirror : String} {c c' : Comparison} {op : Operator}
  (hc : Comparison.ofJoin condition = .ok c) (hc' : Comparison.ofJoin mirror = .ok c')
  (hleft : c'.left = c.right.text) (hright : c'.right.text = c.left)
  (hop : c'.operator = c.operator.mirrored)

include hc hc' hleft hright hop

theorem Sound.mirrored_of_resolved {i j : Nat} {column other : Column}
    (hi : r.schema.resolve c.left = .ok (i, column))
    (hj : s.schema.resolve c.right.text = .ok (j, other))
    (hkind : column.domain.comparableWith other.domain = true) :
    Mirrored r.schema.arity (r.thetaJoin s condition) (s.thetaJoin r mirror) := by
  obtain ⟨joined, hjoined⟩ := r.exists_joinSchema s
  obtain ⟨joined', hjoined'⟩ := s.exists_joinSchema r
  have hsame : other.domain.kind = column.domain.kind := (eq_of_beq hkind).symm
  have hkind' : other.domain.comparableWith column.domain = true := beq_iff_eq.2 hsame
  rw [hr.thetaJoin_eq hs hc hi hj hkind hjoined,
    hs.thetaJoin_eq hr hc' (hleft ▸ hj) (hright ▸ hi) hkind' hjoined']
  refine hr.mirrored_matching fun a ha b hb => ?_
  obtain ⟨-, hv⟩ := (hr a ha).value_eq (Schema.domain_of_resolve hi)
  obtain ⟨-, hw⟩ := (hs b hb).value_eq (Schema.domain_of_resolve hj)
  dsimp only
  rw [hop]
  exact (Value.decides_mirrored hv (hw.of_kind hsame) c.operator).symm

theorem Sound.mirrored_thetaJoin :
    Mirrored r.schema.arity (r.thetaJoin s condition) (s.thetaJoin r mirror) := by
  rcases Join.theta_checks r.schema s.schema condition with
    ⟨fault, -, hrefused⟩ | ⟨d, i, j, column, other, hd, hi, hj, hkind⟩
  · rcases Join.theta_checks s.schema r.schema mirror with
      ⟨fault', -, hrefused'⟩ | ⟨d, j, i, other, column, hd, hj, hi, hkind⟩
    · have hfault : r.thetaJoin s condition = .error fault := hrefused r.rows s.rows
      have hfault' : s.thetaJoin r mirror = .error fault' := hrefused' s.rows r.rows
      rw [hfault, hfault']
      exact .refused fault fault'
    · obtain rfl := Except.ok.inj (hc'.symm.trans hd)
      exact hr.mirrored_of_resolved hs hc hc' hleft hright hop (hright ▸ hi) (hleft ▸ hj)
        (beq_iff_eq.2 (eq_of_beq hkind).symm)
  · obtain rfl := Except.ok.inj (hc.symm.trans hd)
    exact hr.mirrored_of_resolved hs hc hc' hleft hright hop hi hj hkind

end Turned

/-- An equi join and a theta join by words are refused just if the joins with both sides and the operator
the other way round are, and if not, their rows are the same but for their order and that of their parts. -/
theorem joins_mirrored {r s : Relation} (hr : r.Sound) (hs : s.Sound) :
    (∀ left right, Mirrored r.schema.arity (r.equiJoin s left right) (s.equiJoin r right left)) ∧
    ∀ (x y : String) (op : Operator), Text.IsWord x → Text.IsWord y →
      Mirrored r.schema.arity (r.thetaJoin s (x ++ " " ++ op.symbol ++ " " ++ y))
        (s.thetaJoin r (y ++ " " ++ op.mirrored.symbol ++ " " ++ x)) := by
  refine ⟨hr.mirrored_equiJoin hs, fun x y op hx hy => ?_⟩
  exact hr.mirrored_thetaJoin hs (Comparison.ofJoin_text hx op hy)
    (Comparison.ofJoin_text hy op.mirrored hx) rfl rfl rfl

/-- Whole numbers against doubles: five of the twelve pairs are equal and two more are in order, none of
them with the `NaN`. -/
theorem joins_mirrored_counts :
    (∃ joined other : Relation, counts.equiJoin weights ["x"] ["x"] = .ok joined ∧
      joined.rows.length = 5 ∧ weights.equiJoin counts ["x"] ["x"] = .ok other ∧
      (joined.rows.map (Row.turned 2)).Perm other.rows) ∧
    ∃ joined other : Relation, counts.thetaJoin weights "x <= x" = .ok joined ∧
      joined.rows.length = 7 ∧ weights.thetaJoin counts "x >= x" = .ok other ∧
      (joined.rows.map (Row.turned 2)).Perm other.rows := by
  obtain ⟨hequi, htheta⟩ := joins_mirrored sound_counts sound_weights
  constructor
  · obtain ⟨joined, hjoined, hlength⟩ : ∃ joined, counts.equiJoin weights ["x"] ["x"] = .ok joined ∧
        joined.rows.length = 5 := exists_of_length (by decide +kernel)
    have hmirrored : Mirrored 2 _ (weights.equiJoin counts ["x"] ["x"]) := hequi ["x"] ["x"]
    rw [hjoined] at hmirrored
    obtain ⟨other, hother, perm⟩ := hmirrored.exists_turned
    exact ⟨joined, other, hjoined, hlength, hother, perm⟩
  · obtain ⟨joined, hjoined, hlength⟩ : ∃ joined, counts.thetaJoin weights "x <= x" = .ok joined ∧
        joined.rows.length = 7 := exists_of_length (by decide +kernel)
    have hmirrored : Mirrored 2 (counts.thetaJoin weights "x <= x")
        (weights.thetaJoin counts "x >= x") := htheta "x" "x" .le (by decide) (by decide)
    rw [hjoined] at hmirrored
    obtain ⟨other, hother, perm⟩ := hmirrored.exists_turned
    exact ⟨joined, other, hjoined, hlength, hother, perm⟩

end Relation

end KeyedRelations
