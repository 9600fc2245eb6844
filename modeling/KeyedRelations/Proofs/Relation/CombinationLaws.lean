import KeyedRelations.Proofs.Relation.Combinations

/-!
# Laws of unions and differences

The laws of sets hold of unions and differences also where rows have an order and the first relation may
repeat them, and the results agree row by row.
-/

namespace KeyedRelations

/-- Two computations give the same relation. -/
def Coincide (x y : Except Fault Relation) : Prop := ∃ r, x = .ok r ∧ y = .ok r

namespace Relation

variable {r s q : Relation}

/-- Unions can be taken in any grouping, and a union with the relation itself or with rows of it changes
nothing; rows that are added and taken away again leave no trace, and rows are taken away in any order or
at once. -/
theorem union_minus_laws (hr : r.Sound) (hs : s.Sound) (hq : q.Sound)
    (hrs : r.schema.domains = s.schema.domains) (hrq : r.schema.domains = q.schema.domains) :
    Coincide (do (← r.union s).union q) (do r.union (← s.union q)) ∧
    r.union r = .ok r ∧
    Coincide (do r.union (← s.minus r)) (r.union s) ∧
    Coincide (do (← r.union s).minus s) (r.minus s) ∧
    Coincide (do (← r.minus s).minus q) (do r.minus (← s.union q)) ∧
    Coincide (do (← r.minus s).minus q) (do (← r.minus q).minus s) := by
  have hsq : s.schema.domains = q.schema.domains := hrs.symm.trans hrq
  have hunion := hr.union_eq hs hrs
  have hminus := hr.minus_eq hs hrs
  have hunion' := hs.union_eq hq hsq
  have hminus' := hr.minus_eq hq hrq
  have hback := hs.minus_eq hr hrs.symm
  have hminuses : (do (← r.minus s).minus q) =
      .ok ⟨r.schema, without (without r.rows s.rows) q.rows⟩ := by
    rw [hminus]
    exact (hr.minus hminus).minus_eq hq hrq
  refine ⟨⟨⟨r.schema, merge (merge r.rows s.rows) q.rows⟩, ?_, ?_⟩, ?_, ⟨_, ?_, hunion⟩,
    ⟨_, ?_, hminus⟩, ⟨_, hminuses, ?_⟩, ⟨_, hminuses, ?_⟩⟩
  · rw [hunion]
    exact (hr.union hs hunion).union_eq hq hrq
  · rw [hunion', ← merge_merge]
    exact hr.union_eq (hs.union hq hunion') hrs
  · rw [hr.union_eq hr rfl, merge_self]
  · rw [hback, ← merge_without]
    exact hr.union_eq (hs.minus hback) hrs
  · rw [hunion, ← without_merge_of_subset fun row hrow => List.mem_map_of_mem hrow]
    exact (hr.union hs hunion).minus_eq hs hrs
  · rw [hunion', without_without]
    exact hr.minus_eq (hs.union hq hunion') hrs
  · rw [hminus', without_comm]
    exact (hr.minus hminus').minus_eq hs hrs

/-- A `NaN` is in all three relations, and two of them repeat a number. -/
theorem union_minus_laws_doubles :
    let more := ofColumn .float64 [.float (.ofBits 5), .float .nan, .float (.ofBits 7)]
    doubles.Sound ∧ otherDoubles.Sound ∧ more.Sound ∧
    doubles.union doubles = .ok doubles ∧
    Coincide (do (← doubles.union otherDoubles).union more)
      (do doubles.union (← otherDoubles.union more)) ∧
    Coincide (do (← doubles.minus otherDoubles).minus more)
      (do doubles.minus (← otherDoubles.union more)) := by
  intro more
  have hr : doubles.Sound := sound_ofColumn (by decide)
  have hs : otherDoubles.Sound := sound_ofColumn (by decide)
  have hq : more.Sound := sound_ofColumn (by decide)
  obtain ⟨hgrouping, hself, -, -, hatOnce, -⟩ := union_minus_laws hr hs hq rfl rfl
  exact ⟨hr, hs, hq, hself, hgrouping, hatOnce⟩

end Relation

end KeyedRelations
