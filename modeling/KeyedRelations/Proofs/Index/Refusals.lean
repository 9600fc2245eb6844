import KeyedRelations.Proofs.Index.FiniteMap

/-!
# Insertions that are refused

An insertion looks for its key before it touches the tree, so a key that is taken leaves every node as
it is. A comparison can also fail on the way down, between one split and the next; then the nodes that
were split stay split. A split moves entries between nodes and never past each other, so what the tree
holds from left to right is the same at each point where an insertion may stop.
-/

namespace KeyedRelations.PrimaryIndex

variable {table : String} {index index' : TableIndex} {key : Key} {row : Row} {fault : Fault}

/-- An insertion is refused since the key is found, and then the tree is untouched, or since the key
cannot be compared with a stored one. -/
theorem refusal_of_insertAs_error (h : index.insertAs table key row = (index', .error fault)) :
    (fault = key.conflict table ∧ index' = index ∧
      ∃ other, index.find? Key.order key = .ok (some other)) ∨
    ∃ cause, fault = .incomparable cause ∧
      ∃ e ∈ index.toList, Key.order.Refuses key e.1 cause := by
  unfold insertAs at h
  rcases hinsert : index.insert Key.order key row with ⟨tree, (_ | cause) | _⟩
  · rw [hinsert] at h
    obtain ⟨rfl, hresult⟩ := Prod.mk.inj h
    obtain rfl := Except.error.inj hresult
    have hinsertion := index.insertion_insert Key.order key row
    rw [hinsert] at hinsertion
    cases hinsertion with
    | taken search => exact .inl ⟨rfl, rfl, _, search⟩
  · rw [hinsert] at h
    obtain rfl := Except.error.inj (Prod.mk.inj h).2
    exact .inr ⟨cause, rfl, insert_error (congrArg Prod.snd hinsert)⟩
  · rw [hinsert] at h
    cases (Prod.mk.inj h).2

theorem items_of_insertAs_error (h : index.insertAs table key row = (index', .error fault)) :
    index'.items Key.order = index.items Key.order := by
  rw [items_eq, items_eq, (toList_of_insertAs_error h).1]

/-- An insertion that is refused, at whatever point, loses and reorders nothing and does not store its
row. It is refused since its key is taken, and then the tree is the same node for node, or since the
comparison with a stored key fails. -/
theorem insertAs_error_insertAll {t : Nat} (ht : 2 ≤ t) (calls : List (Key × Row)) (table : String)
    (key : Key) (row : Row) :
    let index := (ofOrder t ht).insertAll Key.order calls
    ∀ index' fault, index.insertAs table key row = (index', .error fault) →
      ∃ es, index.items Key.order = .ok es ∧ index'.items Key.order = .ok es ∧
        index'.size = index.size ∧
        (fault = key.conflict table ∧ index' = index ∧
            (∃ other, index.find? Key.order key = .ok (some other)) ∨
          ∃ cause, fault = .incomparable cause ∧ ∃ e ∈ es, Key.order.Refuses key e.1 cause) := by
  intro index index' fault h
  have hitems := index.items_eq Key.order
  exact ⟨index.toList, hitems, (items_of_insertAs_error h).trans hitems,
    (toList_of_insertAs_error h).2, refusal_of_insertAs_error h⟩

/-- Next to a key that is not a number, one insertion is refused since its key is taken, and one gets
past the search and splits the root before it meets a key that it cannot be compared with. -/
theorem insertAs_error_insertAll_split :
    let calls : List (Key × Row) :=
      [([.int 4], .tuple []), ([.float ⟨0x7ff8000000000000⟩], .tuple []),
        ([.int 7, .text "s"], .tuple [])]
    let index := (ofOrder 2 (by decide)).insertAll Key.order calls
    let again := index.insertAs "pairs" [.int 4] (.tuple [.int 4])
    let mixed := index.insertAs "pairs" [.int 7, .int 5] (.tuple [])
    (again.2 = .error (.keyConflict "pairs" [.int 4]) ∧ again.1 = index) ∧
    (∃ cause, mixed.2 = .error (.incomparable cause)) ∧ mixed.1.size = index.size ∧
    (∃ es, index.items Key.order = .ok es ∧ mixed.1.items Key.order = .ok es) ∧
    index.depth = 1 ∧ mixed.1.depth = 2 := by
  intro calls index again mixed
  have hrefused := insertAs_error_insertAll (by decide : 2 ≤ 2) calls "pairs"
  have htaken : again.2 = .error (.keyConflict "pairs" [.int 4]) := by with_unfolding_all rfl
  obtain ⟨_, -, -, -, hreason⟩ :=
    hrefused [.int 4] (.tuple [.int 4]) again.1 _ (Prod.ext rfl htaken)
  obtain ⟨-, hsame, -⟩ := hreason.resolve_right fun ⟨_, hcause, _⟩ => by cases hcause
  obtain ⟨cause, hcause⟩ : ∃ cause, mixed.2 = .error (.incomparable cause) :=
    ⟨_, by with_unfolding_all rfl⟩
  obtain ⟨es, hbefore, hafter, hsize, -⟩ :=
    hrefused [.int 7, .int 5] (.tuple []) mixed.1 _ (Prod.ext rfl hcause)
  exact ⟨⟨htaken, hsame⟩, ⟨cause, hcause⟩, hsize, ⟨es, hbefore, hafter⟩, by decide +kernel,
    by decide +kernel⟩

end KeyedRelations.PrimaryIndex
