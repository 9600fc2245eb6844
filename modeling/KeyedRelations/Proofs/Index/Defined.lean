import KeyedRelations.Proofs.Index.Balance
import KeyedRelations.Proofs.Index.Ordered

/-!
# Searches that have an answer

A search and an insertion fail only where the key is compared with a stored one and the comparison
fails. So they have an answer among keys of which every two can be compared, even if the comparisons
are not those of an order.
-/

namespace KeyedRelations

variable {κ ρ ε : Type} {order : KeyOrder κ ε} {S : Set κ} {key : κ} {cause : ε}

namespace KeyOrder

/-- Whether every two keys of a set can be compared. -/
structure DefinedOn (order : KeyOrder κ ε) (S : Set κ) : Prop where
  less : ∀ a ∈ S, ∀ b ∈ S, ∃ answer, order.less a b = .ok answer
  greater : ∀ a ∈ S, ∀ b ∈ S, ∃ answer, order.greater a b = .ok answer

/-- Whether one of the comparisons of a key with another one fails for this cause. -/
def Refuses (order : KeyOrder κ ε) (key other : κ) (cause : ε) : Prop :=
  order.less other key = .error cause ∨ order.less key other = .error cause ∨
    order.greater key other = .error cause

theorem DefinedOn.not_refuses {other : κ} (hS : order.DefinedOn S) (hkey : key ∈ S)
    (hother : other ∈ S) : ¬order.Refuses key other cause := by
  have hbelow := hS.less other hother key hkey
  have habove := hS.less key hkey other hother
  have hgreater := hS.greater key hkey other hother
  rintro (h | h | h)
  · simp [h] at hbelow
  · simp [h] at habove
  · simp [h] at hgreater

end KeyOrder

namespace Index

/-- A search that fails does so at one of the keys. -/
theorem boundary_error {before : κ → Except ε Bool} {keys : List κ} {steps low high : Nat}
    (h : boundary before keys steps low high = .error cause) :
    ∃ k ∈ keys, before k = .error cause := by
  induction steps generalizing low high with
  | zero => cases h
  | succ steps ih =>
    unfold boundary at h
    split_ifs at h with hlt
    dsimp only at h
    cases hk : keys[(low + high) / 2]? with
    | none =>
      rw [hk] at h
      cases h
    | some k =>
      simp only [hk] at h
      cases hanswer : before k with
      | error fault =>
        simp only [hanswer, bind, Except.bind] at h
        obtain rfl := Except.error.inj h
        exact ⟨k, List.mem_of_getElem? hk, hanswer⟩
      | ok answer =>
        simp only [hanswer, bind, Except.bind] at h
        cases answer with
        | true => exact ih h
        | false => exact ih h

theorem firstNotBelow_error {keys : List κ} (h : firstNotBelow order keys key = .error cause) :
    ∃ k ∈ keys, order.Refuses key k cause := by
  obtain ⟨k, hk, hless⟩ := boundary_error h
  exact ⟨k, hk, .inl hless⟩

theorem firstAbove_error {keys : List κ} (h : firstAbove order keys key = .error cause) :
    ∃ k ∈ keys, order.Refuses key k cause := by
  obtain ⟨k, hk, hnot⟩ := boundary_error h
  cases hless : order.less key k with
  | ok answer =>
    rw [hless] at hnot
    cases hnot
  | error fault =>
    rw [hless] at hnot
    obtain rfl := Except.error.inj hnot
    exact ⟨k, hk, .inr (.inl hless)⟩

namespace Node

variable {h : Nat}

theorem subset_focus (first : Node κ ρ h) (rest : List ((κ × ρ) × Node κ ρ h)) (i : Nat) :
    (focus first rest i).child.toList ⊆ toList (h := h + 1) (first, rest) := by
  rw [← plug_focus first rest i, toList_plug]
  intro e he
  exact List.mem_append_right _ (List.mem_append_left _ he)

theorem mem_of_find? {n : Node κ ρ h} {row : ρ} (hfind : n.find? order key = .ok (some row)) :
    ∃ e ∈ n.toList, e.2 = row := by
  induction h with
  | zero =>
    obtain ⟨i, -, hfind⟩ := exists_of_bind_eq_ok hfind
    change List (κ × ρ) at n
    cases he : n[i]? with
    | none => simp [he, pure, Except.pure] at hfind
    | some e =>
      refine ⟨e, List.mem_of_getElem? he, ?_⟩
      simp only [he, pure, Except.pure] at hfind
      split_ifs at hfind
      · simpa using hfind
      · simp at hfind
  | succ h ih =>
    obtain ⟨first, rest⟩ := n
    obtain ⟨i, -, hfind⟩ := exists_of_bind_eq_ok hfind
    have hbelow : ∀ hfind : (focus first rest i).child.find? order key = .ok (some row),
        ∃ e ∈ toList (h := h + 1) (first, rest), e.2 = row := by
      intro hfind
      obtain ⟨e, he, hrow⟩ := ih hfind
      exact ⟨e, subset_focus first rest i he, hrow⟩
    cases he : rest[i]? with
    | none =>
      simp only [he] at hfind
      exact hbelow hfind
    | some separator =>
      simp only [he] at hfind
      split_ifs at hfind
      · refine ⟨separator.1, ?_, by simpa [pure, Except.pure] using hfind⟩
        have hentry := List.mem_map_of_mem (f := (·.1)) (List.mem_of_getElem? he)
        exact (entries_sublist (h := h + 1) (first, rest)).subset hentry
      · exact hbelow hfind

/-- What holds of a key of the node holds of one of its entries. -/
theorem exists_of_keys {n : Node κ ρ h} {P : κ → Prop} (hkeys : ∃ k ∈ n.keys, P k) :
    ∃ e ∈ n.toList, P e.1 := by
  obtain ⟨k, hk, hP⟩ := hkeys
  obtain ⟨e, he, rfl⟩ := List.mem_map.1 hk
  exact ⟨e, (entries_sublist n).subset he, hP⟩

/-- A search that fails does so where the key is compared with a stored one. -/
theorem find?_error {n : Node κ ρ h} (hfind : n.find? order key = .error cause) :
    ∃ e ∈ n.toList, order.Refuses key e.1 cause := by
  induction h with
  | zero =>
    change List (κ × ρ) at n
    rw [find?] at hfind
    cases hsearch : firstNotBelow order (n.map (·.1)) key with
    | error fault =>
      simp only [hsearch, bind, Except.bind] at hfind
      obtain rfl := Except.error.inj hfind
      exact exists_of_keys (firstNotBelow_error hsearch)
    | ok i =>
      simp only [hsearch, bind, Except.bind] at hfind
      cases he : n[i]? <;> simp [he, pure, Except.pure] at hfind
  | succ h ih =>
    obtain ⟨first, rest⟩ := n
    have hkeys : rest.map (·.1.1) = keys (h := h + 1) (first, rest) := by
      simp [keys, entries, Function.comp_def]
    rw [find?, hkeys] at hfind
    cases hsearch : firstNotBelow order (keys (h := h + 1) (first, rest)) key with
    | error fault =>
      simp only [hsearch, bind, Except.bind] at hfind
      obtain rfl := Except.error.inj hfind
      exact exists_of_keys (firstNotBelow_error hsearch)
    | ok i =>
      have hbelow : ∀ hfind : (focus first rest i).child.find? order key = .error cause,
          ∃ e ∈ toList (h := h + 1) (first, rest), order.Refuses key e.1 cause := by
        intro hfind
        obtain ⟨e, he, hrefuses⟩ := ih hfind
        exact ⟨e, subset_focus first rest i he, hrefuses⟩
      simp only [hsearch, bind, Except.bind] at hfind
      cases he : rest[i]? with
      | none =>
        rw [he] at hfind
        exact hbelow hfind
      | some separator =>
        simp only [he] at hfind
        split_ifs at hfind
        · cases hfind
        · exact hbelow hfind

/-- An insertion that fails does so where the key is compared with a stored one. -/
theorem insert_error {t : Nat} (ht : 2 ≤ t) {row : ρ} {n : Node κ ρ h}
    (hinsert : (n.insert order t key row).2 = .error cause) :
    ∃ e ∈ n.toList, order.Refuses key e.1 cause := by
  induction h with
  | zero =>
    rcases insert_leaf order key row t n with ⟨fault, hsearch, heq⟩ | ⟨left, right, -, -, heq⟩
    · rw [heq] at hinsert
      obtain rfl := Except.error.inj hinsert
      exact exists_of_keys (firstAbove_error hsearch)
    · rw [heq] at hinsert
      cases hinsert
  | succ h ih =>
    have hpassage := passage_insert order key row ht n
    generalize n.insert order t key row = outcome at hpassage hinsert
    cases hpassage with
    | refused search =>
      obtain rfl := Except.error.inj hinsert
      exact exists_of_keys (firstAbove_error search)
    | @through child after before _ _ =>
      obtain ⟨e, he, hrefuses⟩ := ih hinsert
      exact ⟨e, by simp [toList_plug, he], hrefuses⟩
    -- The key that moves up from a full child is one of the keys of the tree.
    | @stuck child after before left middle right fault _ _ cut side =>
      obtain rfl := Except.error.inj hinsert
      exact ⟨middle, by simp [toList_plug, toList_of_split? cut], .inr (.inr side)⟩
    | @rightward child after before left middle right _ _ cut _ =>
      obtain ⟨e, he, hrefuses⟩ := ih hinsert
      exact ⟨e, by simp [toList_plug, toList_of_split? cut, he], hrefuses⟩
    | @leftward child after before left middle right _ _ cut _ =>
      obtain ⟨e, he, hrefuses⟩ := ih hinsert
      exact ⟨e, by simp [toList_plug, toList_of_split? cut, he], hrefuses⟩

theorem exists_find? (hS : order.DefinedOn S) (hkey : key ∈ S) {n : Node κ ρ h}
    (hkeys : ∀ e ∈ n.toList, e.1 ∈ S) : ∃ found?, n.find? order key = .ok found? := by
  cases hfind : n.find? order key with
  | ok found? => exact ⟨found?, rfl⟩
  | error cause =>
    obtain ⟨e, he, hrefuses⟩ := find?_error hfind
    exact absurd hrefuses (hS.not_refuses hkey (hkeys e he))

end Node

end Index

namespace PrimaryIndex

variable {index : PrimaryIndex κ ρ}

theorem insert_error {row : ρ}
    (hinsert : (index.insert order key row).2 = .error (.comparison cause)) :
    ∃ e ∈ index.toList, order.Refuses key e.1 cause := by
  have hinsertion := index.insertion_insert order key row
  generalize index.insert order key row = outcome at hinsertion hinsert
  cases hinsertion with
  | refused search =>
    obtain rfl := InsertFault.comparison.inj (Except.error.inj hinsert)
    exact Index.Node.find?_error search
  | taken _ => cases hinsert
  | stuck _ descent =>
    obtain rfl := InsertFault.comparison.inj (Except.error.inj hinsert)
    have hrefused := Index.Node.insert_error index.withRoom.two_le_order (congrArg Prod.snd descent)
    rw [← toList, index.toList_withRoom] at hrefused
    exact hrefused
  | added _ _ => cases hinsert

/-- A key that is not found can be inserted. -/
theorem insert_defined (hS : order.DefinedOn S) (hkey : key ∈ S)
    (hkeys : ∀ e ∈ index.toList, e.1 ∈ S) (row : ρ) (hnew : index.find? order key = .ok none) :
    (index.insert order key row).2 = .ok () := by
  cases hinsert : (index.insert order key row).2 with
  | ok _ => rfl
  | error fault =>
    cases fault with
    | taken =>
      have hinsertion := index.insertion_insert order key row
      generalize index.insert order key row = outcome at hinsertion hinsert
      cases hinsertion with
      | taken search => exact absurd (hnew.symm.trans search) (by simp)
      | _ => cases hinsert
    | comparison cause =>
      obtain ⟨e, he, hrefuses⟩ := insert_error hinsert
      exact absurd hrefuses (hS.not_refuses hkey (hkeys e he))

end PrimaryIndex

end KeyedRelations
