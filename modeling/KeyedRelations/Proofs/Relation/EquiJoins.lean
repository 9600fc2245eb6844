import KeyedRelations.Proofs.Condition.Reading
import KeyedRelations.Proofs.Relation.Joins

/-!
# Equi joins and theta joins

An equi join takes lists of names, a theta join reads two names from a text. Both find the same columns
and test the same equality, so the pairs of an equi join are those that all theta joins on its paired
names have in common.
-/

namespace KeyedRelations

/-- Whether two rows are equal in the columns of two names. -/
def Row.equalIn (left right : Schema) (names : String × String) (x : Row × Row) : Bool :=
  (x.1.values.cell (left.attributes.idxOf names.1)).same
    (x.2.values.cell (right.attributes.idxOf names.2))

namespace Schema

/-- The names of two columns that can be compared, each of them one word. -/
structure Comparable (left right : Schema) (x y : String) : Prop where
  left_isWord : Text.IsWord x
  right_isWord : Text.IsWord y
  comparable : ∃ column ∈ left.columns, ∃ other ∈ right.columns, column.name = x ∧ other.name = y ∧
    column.domain.comparableWith other.domain = true

variable {left right : Schema} {x y : String} {names others : List String}

theorem resolve_of_mem {schema : Schema} {column : Column} (h : column ∈ schema.columns) :
    schema.resolve column.name = .ok (schema.attributes.idxOf column.name, column) := by
  obtain ⟨i, hi⟩ := List.getElem?_of_mem h
  have hposition := (position?_of_mem (List.mem_map_of_mem h)).symm.trans (position?_of_getElem? hi)
  rw [Option.some.inj hposition]
  exact resolve_eq_ok_iff.2 ⟨hi, rfl⟩

theorem Comparable.mem (h : Comparable left right x y) : x ∈ left.attributes ∧ y ∈ right.attributes := by
  obtain ⟨column, hcolumn, other, hother, rfl, rfl, -⟩ := h.comparable
  exact ⟨List.mem_map_of_mem hcolumn, List.mem_map_of_mem hother⟩

theorem mem_of_comparable (h : List.Forall₂ (Comparable left right) names others) :
    (∀ x ∈ names, x ∈ left.attributes) ∧ ∀ y ∈ others, y ∈ right.attributes := by
  induction h with
  | nil => simp
  | cons hfirst _ ih =>
    exact ⟨List.forall_mem_cons.2 ⟨hfirst.mem.1, ih.1⟩, List.forall_mem_cons.2 ⟨hfirst.mem.2, ih.2⟩⟩

end Schema

namespace Relation

section Comparable

variable {r s : Relation} {joined : Schema} (hr : r.Sound) (hs : s.Sound)
  (hjoined : r.joinSchema s = .ok joined)

include hr hs hjoined

/-- A theta join by equality keeps the pairs that are equal in the two columns. -/
theorem Sound.thetaJoin_equal {x y : String} (h : r.schema.Comparable s.schema x y) :
    r.thetaJoin s (x ++ " == " ++ y) = .ok ⟨joined, matching
      (Row.equalIn r.schema s.schema (x, y)) (fun z => z.1.beside z.2) r.rows s.rows⟩ := by
  have htext : x ++ " == " ++ y = Comparison.text ⟨x, .eq, .attribute y⟩ := by
    have hsymbol : " == " = " " ++ (Operator.eq.symbol ++ " ") := rfl
    simp only [Comparison.text, Operand.text, hsymbol, String.append_assoc]
  obtain ⟨column, hcolumn, other, hother, rfl, rfl, hkind⟩ := h.comparable
  rw [htext]
  exact hr.thetaJoin_eq hs (Comparison.ofJoin_text h.left_isWord .eq h.right_isWord)
    (Schema.resolve_of_mem hcolumn) (Schema.resolve_of_mem hother) hkind hjoined

/-- An equi join keeps the pairs that are equal in all paired columns. -/
theorem Sound.equiJoin_equal {left right : List String}
    (h : List.Forall₂ (r.schema.Comparable s.schema) left right) :
    r.equiJoin s left right = .ok ⟨joined, matching
      (fun z => (left.zip right).all fun names => Row.equalIn r.schema s.schema names z)
      (fun z => z.1.beside z.2) r.rows s.rows⟩ := by
  obtain ⟨hleft, hright⟩ := Schema.mem_of_comparable h
  rw [hr.equiJoin_eq hs h.length_eq (Schema.positions_eq_ok_iff.2 ⟨hleft, rfl⟩)
    (Schema.positions_eq_ok_iff.2 ⟨hright, rfl⟩) hjoined]
  unfold Row.agree
  simp only [List.zip_map, List.all_map]
  rfl

end Comparable

/-- An equi join has the schema of each theta join by equality of two of its paired columns, and keeps the
pairs that are kept by all of them. So an equi join on one pair of columns is a theta join. -/
theorem equiJoin_eq_thetaJoins {r s : Relation} (hr : r.Sound) (hs : s.Sound)
    {left right : List String} (h : List.Forall₂ (r.schema.Comparable s.schema) left right) :
    ∃ schema : Schema,
      (∀ names ∈ left.zip right, r.thetaJoin s (names.1 ++ " == " ++ names.2) =
        .ok ⟨schema, matching (Row.equalIn r.schema s.schema names)
          (fun x => x.1.beside x.2) r.rows s.rows⟩) ∧
      r.equiJoin s left right = .ok ⟨schema, matching
        (fun x => (left.zip right).all fun names => Row.equalIn r.schema s.schema names x)
        (fun x => x.1.beside x.2) r.rows s.rows⟩ ∧
      ∀ x y, left = [x] → right = [y] → r.equiJoin s left right = r.thetaJoin s (x ++ " == " ++ y) := by
  obtain ⟨schema, hschema⟩ := r.exists_joinSchema s
  have hequi := hr.equiJoin_equal hs hschema h
  refine ⟨schema, fun names hnames => ?_, hequi, ?_⟩
  · exact hr.thetaJoin_equal hs hschema ((List.forall₂_iff_zip.1 h).2 hnames)
  · rintro x y rfl rfl
    obtain ⟨hpair, -⟩ := List.forall₂_cons.1 h
    rw [hequi, hr.thetaJoin_equal hs hschema hpair]
    simp

/-- Doubles are equal to whole numbers, and of the five pairs equal in `x` one is equal in `n` and `w`. -/
theorem equiJoin_eq_thetaJoins_counts :
    List.Forall₂ (counts.schema.Comparable weights.schema) ["x", "n"] ["x", "w"] ∧
    ∃ byX byBoth : Relation, counts.thetaJoin weights "x == x" = .ok byX ∧ byX.rows.length = 5 ∧
      counts.equiJoin weights ["x"] ["x"] = .ok byX ∧
      counts.equiJoin weights ["x", "n"] ["x", "w"] = .ok byBoth ∧ byBoth.rows.length = 1 ∧
      byBoth.schema = byX.schema := by
  have hx : counts.schema.Comparable weights.schema "x" "x" := ⟨by decide, by decide, by decide⟩
  have hn : counts.schema.Comparable weights.schema "n" "w" := ⟨by decide, by decide, by decide⟩
  have hboth := List.Forall₂.cons hx (List.Forall₂.cons hn .nil)
  obtain ⟨schema, htheta, hequi, -⟩ := equiJoin_eq_thetaJoins sound_counts sound_weights hboth
  obtain ⟨-, -, -, hsingle⟩ := equiJoin_eq_thetaJoins sound_counts sound_weights (.cons hx .nil)
  have hbyX := htheta ("x", "x") List.mem_cons_self
  exact ⟨hboth, _, _, hbyX, by dsimp only; decide +kernel, (hsingle "x" "x" rfl rfl).trans hbyX, hequi,
    by dsimp only; decide +kernel, rfl⟩

end Relation

end KeyedRelations
