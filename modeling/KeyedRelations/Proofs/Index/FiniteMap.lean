import KeyedRelations.Proofs.Index.Searching
import KeyedRelations.Proofs.Key.Wording
import Mathlib.Data.List.Pairwise
import Mathlib.Data.List.Perm.Basic

/-!
# The index as a finite map

As long as the keys of an index are ordered in earnest, every call is answered as by a finite map
from keys to rows that is kept in the order of its keys. The answers do not depend on the shape of
the tree, and so not on its order as a B-tree. One answer is not of the map's making: a key that is
taken is refused by name, and a key with an integer that is too long to be written has none.
-/

namespace KeyedRelations

open Index

variable {κ ρ ε : Type}

/-! ## Single operations -/

/-- Entries with strictly ascending keys. -/
def KeyOrder.Sorted (order : KeyOrder κ ε) (es : List (κ × ρ)) : Prop :=
  es.Pairwise fun a b => order.less a.1 b.1 = .ok true

section Line

variable {α : Type} [LinearOrder α] {order : KeyOrder κ ε} {place : κ → α} {S : Set κ} {key : κ}

theorem ascending_iff_sorted (hS : order.Along place S) {es : List (κ × ρ)}
    (hkeys : ∀ e ∈ es, e.1 ∈ S) : Ascending place es ↔ order.Sorted es := by
  refine List.Pairwise.iff_of_mem fun {a b} ha hb => ?_
  rw [hS.less_eq a.1 (hkeys a ha) b.1 (hkeys b hb)]
  simp

namespace PrimaryIndex

variable {index : PrimaryIndex κ ρ} (hS : order.Along place S) (hkey : key ∈ S)
  (hsorted : order.Sorted index.toList) (hkeys : ∀ e ∈ index.toList, e.1 ∈ S)

include hS hkey hsorted hkeys

theorem find?_eq :
    index.find? order key = .ok ((index.toList.find? fun e => order.same e.1 key).map (·.2)) := by
  have hascending := (ascending_iff_sorted hS hkeys).2 hsorted
  obtain ⟨found?, hfind⟩ := Node.exists_find? hS.definedOn hkey hkeys
  have hfound := Node.eq_of_find? (hS.parts hkey) hascending hkeys hfind
  exact hfind.trans (congrArg Except.ok hfound)

theorem insert_taken (row : ρ) {e : κ × ρ} (he : e ∈ index.toList)
    (hsame : order.same e.1 key = true) : index.insert order key row = (index, .error .taken) := by
  have hfind := find?_eq hS hkey hsorted hkeys
  cases hfound : index.toList.find? fun e => order.same e.1 key with
  | none => exact absurd hsame (List.find?_eq_none.1 hfound e he)
  | some other =>
    unfold insert
    rw [hfind, hfound]
    rfl

theorem insert_new (row : ρ) (hnew : ∀ e ∈ index.toList, order.same e.1 key = false) :
    (index.insert order key row).2 = .ok () ∧
      Node.Placed place key row index.toList (index.insert order key row).1.toList ∧
        (index.insert order key row).1.size = index.size + 1 := by
  have hfind := find?_eq hS hkey hsorted hkeys
  rw [List.find?_eq_none.2 fun e he => by simp [hnew e he], Option.map_none] at hfind
  have hascending := (ascending_iff_sorted hS hkeys).2 hsorted
  have hplaces : ∀ e ∈ index.toList, place e.1 ≠ place key := by
    intro e he heq
    have hsame := hnew e he
    rw [hS.same_eq e.1 (hkeys e he) key hkey] at hsame
    exact of_decide_eq_false hsame heq
  rw [← index.toList_withRoom] at hascending hkeys hplaces
  obtain ⟨hok, hplaced⟩ :=
    Node.placed_insert hS hkey index.withRoom.two_le_order row hascending hkeys hplaces
  change Node.Placed place key row index.withRoom.toList _ at hplaced
  rw [index.toList_withRoom] at hplaced
  have hinsertion := index.insertion_insert order key row
  generalize index.insert order key row = outcome at hinsertion ⊢
  cases hinsertion with
  | refused search => exact absurd (search.symm.trans hfind) (by simp)
  | taken search => exact absurd (search.symm.trans hfind) (by simp)
  | stuck _ descent =>
    rw [descent] at hok
    exact absurd hok (by simp)
  | added _ descent =>
    rw [descent] at hplaced
    exact ⟨rfl, hplaced, congrArg (· + 1) index.size_withRoom⟩

end PrimaryIndex

namespace Index.Node.Placed

variable {row : ρ} {es es' es'' : List (κ × ρ)}

theorem perm (hplaced : Placed place key row es es') : es'.Perm ((key, row) :: es) := by
  obtain ⟨left, right, rfl, rfl, -, -⟩ := hplaced
  exact List.perm_middle

theorem ascending (hplaced : Placed place key row es es') (hascending : Ascending place es) :
    Ascending place es' := by
  obtain ⟨left, right, rfl, rfl, hleft, hright⟩ := hplaced
  obtain ⟨hbefore, hafter, hbetween⟩ := List.pairwise_append.1 hascending
  refine List.pairwise_append.2 ⟨hbefore, List.pairwise_cons.2 ⟨hright, hafter⟩, ?_⟩
  intro a ha b hb
  rcases List.mem_cons.1 hb with rfl | hb
  · exact hleft a ha
  · exact hbetween a ha b hb

/-- There is one place only for a new entry. -/
theorem unique (hplaced : Placed place key row es es') (hother : Placed place key row es es'')
    (hascending : Ascending place es) : es' = es'' := by
  have hperm := hplaced.perm.trans hother.perm.symm
  exact hperm.eq_of_pairwise (fun a b _ _ hab hba => absurd hba hab.asymm)
    (hplaced.ascending hascending) (hother.ascending hascending)

end Index.Node.Placed

end Line

/-! ## Calls and answers -/

/-- A call of the index of a table. -/
inductive IndexCall where
  | insert (key : Key) (row : Row)
  | get (key : Key)
  | contains (key : Key)
  | len
  | items
  | keys

inductive IndexAnswer where
  | done
  | row (row? : Option Row)
  | truth (b : Bool)
  | count (n : Nat)
  | entries (es : List (Key × Row))
  | keys (ks : List Key)

namespace PrimaryIndex

/-- The index after a call, with the answer. -/
def answer (index : TableIndex) (table : String) :
    IndexCall → TableIndex × Except Fault IndexAnswer
  | .insert key row =>
    let (index, result) := index.insertAs table key row
    (index, result.map fun _ => .done)
  | .get key => (index, ((index.find? Key.order key).map .row).mapError .incomparable)
  | .contains key => (index, ((index.contains Key.order key).map .truth).mapError .incomparable)
  | .len => (index, .ok (.count index.size))
  | .items => (index, ((index.items Key.order).map .entries).mapError .incomparable)
  | .keys => (index, ((index.keys Key.order).map .keys).mapError .incomparable)

/-- The answers to calls one after the other. -/
def answers (index : TableIndex) (table : String) : List IndexCall → List (Except Fault IndexAnswer)
  | [] => []
  | call :: calls =>
    let (index, answer) := index.answer table call
    answer :: index.answers table calls

end PrimaryIndex

namespace IndexCall

/-- The keys that a call asks about. -/
def asked : IndexCall → List Key
  | .insert key _ | .get key | .contains key => [key]
  | .len | .items | .keys => []

/-- The keys that a call offers for insertion. -/
def offered : IndexCall → List Key
  | .insert key _ => [key]
  | _ => []

/-- How a finite map answers a call, and the entries that it has accepted before and after it, in
the order in which they came. -/
inductive Answered (table : String) (accepted : List (Key × Row)) :
    IndexCall → Except Fault IndexAnswer → List (Key × Row) → Prop
  | inserted {key row} (new : ∀ e ∈ accepted, Key.order.same e.1 key = false) :
    Answered table accepted (.insert key row) (.ok .done) (accepted ++ [(key, row)])
  | conflict {key row e} (mem : e ∈ accepted) (same : Key.order.same e.1 key = true)
    (worded : (Value.key key).Worded) :
    Answered table accepted (.insert key row) (.error (.keyConflict table key)) accepted
  | unworded {key row e} (mem : e ∈ accepted) (same : Key.order.same e.1 key = true)
    (long : ¬(Value.key key).Worded) :
    Answered table accepted (.insert key row) (.error .integerLength) accepted
  | found {key e} (mem : e ∈ accepted) (same : Key.order.same e.1 key = true) :
    Answered table accepted (.get key) (.ok (.row (some e.2))) accepted
  | missing {key} (new : ∀ e ∈ accepted, Key.order.same e.1 key = false) :
    Answered table accepted (.get key) (.ok (.row none)) accepted
  | contains {key} : Answered table accepted (.contains key)
    (.ok (.truth (accepted.any fun e => Key.order.same e.1 key))) accepted
  | len : Answered table accepted .len (.ok (.count accepted.length)) accepted
  | items {es} (perm : es.Perm accepted) (sorted : Key.order.Sorted es) :
    Answered table accepted .items (.ok (.entries es)) accepted
  | keys {es} (perm : es.Perm accepted) (sorted : Key.order.Sorted es) :
    Answered table accepted .keys (.ok (.keys (es.map (·.1)))) accepted

/-- Answers to calls as a finite map gives them. -/
inductive Consistent (table : String) :
    List (Key × Row) → List IndexCall → List (Except Fault IndexAnswer) → Prop
  | nil {accepted} : Consistent table accepted [] []
  | cons {accepted accepted' call calls answer answers}
    (step : Answered table accepted call answer accepted')
    (rest : Consistent table accepted' calls answers) :
    Consistent table accepted (call :: calls) (answer :: answers)

theorem Answered.taken {table : String} {accepted : List (Key × Row)} {key : Key} {row : Row}
    {e : Key × Row} (mem : e ∈ accepted) (same : Key.order.same e.1 key = true) :
    Answered table accepted (.insert key row) (.error (key.conflict table)) accepted := by
  by_cases hkey : (Value.key key).Worded
  · rw [Key.conflict_worded table hkey]
    exact .conflict mem same hkey
  · rw [Key.conflict_not_worded table hkey]
    exact .unworded mem same hkey

theorem Answered.mem_offered {table : String} {accepted accepted' : List (Key × Row)}
    {call : IndexCall} {answer : Except Fault IndexAnswer}
    (hanswered : Answered table accepted call answer accepted') {e : Key × Row}
    (he : e ∈ accepted') : e ∈ accepted ∨ e.1 ∈ call.offered := by
  cases hanswered with
  | inserted _ =>
    rcases List.mem_append.1 he with he | he
    · exact .inl he
    · rw [List.mem_singleton.1 he]
      exact .inr List.mem_cons_self
  | _ => exact .inl he

end IndexCall

/-! ## Runs -/

namespace PrimaryIndex

open IndexCall

variable {table : String} {index : TableIndex} {accepted : List (Key × Row)} {K : Set Key}

/-- The tree holds the accepted entries in the order of their keys. -/
structure Represents (index : TableIndex) (accepted : List (Key × Row)) : Prop where
  sorted : Key.order.Sorted index.toList
  perm : index.toList.Perm accepted
  size_eq : index.size = accepted.length

theorem represents_ofOrder {t : Nat} (ht : 2 ≤ t) : (ofOrder t ht : TableIndex).Represents [] :=
  ⟨List.Pairwise.nil, .nil, rfl⟩

theorem insertAs_ok {index' : TableIndex} {key : Key} {row : Row}
    (h : index.insert Key.order key row = (index', .ok ())) :
    index.insertAs table key row = (index', .ok ()) := by
  simp only [insertAs, h]
  rfl

theorem insertAs_taken {key : Key} {row : Row}
    (h : index.insert Key.order key row = (index, .error .taken)) :
    index.insertAs table key row = (index, .error (key.conflict table)) := by
  simp only [insertAs, h]
  rfl

/-- A key that is found is taken. -/
theorem insertAs_found {key : Key} {row other : Row}
    (h : index.find? Key.order key = .ok (some other)) :
    index.insertAs table key row = (index, .error (key.conflict table)) := by
  apply insertAs_taken
  unfold insert
  rw [h]

/-- Only a key that is not found is inserted. -/
theorem find?_of_insertAs_ok {index' : TableIndex} {key : Key} {row : Row}
    (h : index.insertAs table key row = (index', .ok ())) :
    index.find? Key.order key = .ok none := by
  cases hfind : index.find? Key.order key with
  | error cause =>
    simp only [insertAs, insert, hfind] at h
    cases (Prod.mk.inj h).2
  | ok found? =>
    cases found? with
    | none => rfl
    | some other =>
      rw [insertAs_found hfind] at h
      cases (Prod.mk.inj h).2

theorem toList_of_insertAs_error {index' : TableIndex} {key : Key} {row : Row} {fault : Fault}
    (h : index.insertAs table key row = (index', .error fault)) :
    index'.toList = index.toList ∧ index'.size = index.size := by
  have hadded := index.added_insert Key.order key row
  have hsize := index.size_insert Key.order key row
  unfold insertAs at h
  generalize index.insert Key.order key row = outcome at h hadded hsize
  obtain ⟨other, cause | done⟩ := outcome
  · obtain ⟨rfl, -⟩ := Prod.mk.inj h
    exact ⟨hadded.eq_of_failed, hsize⟩
  · exact absurd (Prod.mk.inj h).2 (by simp [Except.mapError])

theorem size_of_insertAs_ok {index' : TableIndex} {key : Key} {row : Row}
    (h : index.insertAs table key row = (index', .ok ())) : index'.size = index.size + 1 := by
  have hsize := index.size_insert Key.order key row
  unfold insertAs at h
  generalize index.insert Key.order key row = outcome at h hsize
  obtain ⟨other, cause | done⟩ := outcome
  · exact absurd (Prod.mk.inj h).2 (by simp [Except.mapError])
  · obtain ⟨rfl, -⟩ := Prod.mk.inj h
    exact hsize

theorem length_of_insertAs_ok {index' : TableIndex} {key : Key} {row : Row}
    (h : index.insertAs table key row = (index', .ok ())) :
    index'.toList.length = index.toList.length + 1 := by
  have hlength := (index.added_insert Key.order key row).length_eq
  unfold insertAs at h
  generalize index.insert Key.order key row = outcome at h hlength
  obtain ⟨other, cause | done⟩ := outcome
  · exact absurd (Prod.mk.inj h).2 (by simp [Except.mapError])
  · obtain ⟨rfl, -⟩ := Prod.mk.inj h
    exact hlength

theorem answer_insert {index' : TableIndex} {key : Key} {row : Row} {result : Except Fault Unit}
    (h : index.insertAs table key row = (index', result)) :
    index.answer table (.insert key row) = (index', result.map fun _ => .done) := by
  simp only [answer, h]

section Step

variable (hrep : index.Represents accepted) (hkeys : ∀ e ∈ accepted, e.1 ∈ K) {key : Key}

include hrep hkeys

theorem Represents.keys_mem : ∀ e ∈ index.toList, e.1 ∈ K ∪ {key} := fun e he =>
  Set.mem_union_left _ (hkeys e (hrep.perm.mem_iff.1 he))

theorem Represents.find? (htotal : Key.order.TotalOn (K ∪ {key})) :
    index.find? Key.order key =
      .ok ((index.toList.find? fun e => Key.order.same e.1 key).map (·.2)) := by
  obtain ⟨line, _, place, hS⟩ := htotal
  exact find?_eq hS (Set.mem_union_right K rfl) hrep.sorted (hrep.keys_mem hkeys)

/-- Every accepted row is found under its key. -/
theorem Represents.find?_mem (htotal : Key.order.TotalOn (K ∪ {key})) {row : Row}
    (hmem : (key, row) ∈ accepted) : index.find? Key.order key = .ok (some row) := by
  have hfind := hrep.find? hkeys htotal
  obtain ⟨line, _, place, hS⟩ := htotal
  have hkeysHere : ∀ e ∈ index.toList, e.1 ∈ K ∪ {key} := hrep.keys_mem hkeys
  have hkey : key ∈ K ∪ {key} := Set.mem_union_right K rfl
  have hhere := hrep.perm.mem_iff.2 hmem
  have hself : Key.order.same key key = true := by simp [hS.same_eq key hkey key hkey]
  rw [hfind]
  cases hfound : index.toList.find? fun e => Key.order.same e.1 key with
  | none => exact absurd hself (List.find?_eq_none.1 hfound (key, row) hhere)
  | some e =>
    have he := List.mem_of_find?_eq_some hfound
    have hsame := List.find?_some hfound
    rw [hS.same_eq e.1 (hkeysHere e he) key hkey] at hsame
    have hplace : place e.1 = place key := of_decide_eq_true hsame
    have hdistinct : index.toList.Pairwise fun a b => place a.1 ≠ place b.1 :=
      ((ascending_iff_sorted hS hkeysHere).2 hrep.sorted).imp ne_of_lt
    have hsymm : Std.Symm fun a b : Key × Row => place a.1 ≠ place b.1 := ⟨fun _ _ h => h.symm⟩
    by_cases heq : e = (key, row)
    · rw [heq]
      rfl
    · exact absurd hplace (hdistinct.forall he hhere heq)

/-- An insertion finds the key taken, or puts the entry where it belongs. -/
theorem Represents.insert_cases {α : Type} [LinearOrder α] {place : Key → α}
    (hS : Key.order.Along place (K ∪ {key})) (table : String) (row : Row) :
    (∃ e ∈ index.toList, Key.order.same e.1 key = true ∧
      index.insertAs table key row = (index, .error (key.conflict table))) ∨
    ∃ index', (∀ e ∈ index.toList, Key.order.same e.1 key = false) ∧
      index.insertAs table key row = (index', .ok ()) ∧
      Node.Placed place key row index.toList index'.toList ∧ index'.size = index.size + 1 := by
  have hmem : key ∈ K ∪ {key} := Set.mem_union_right K rfl
  have hkeysHere : ∀ e ∈ index.toList, e.1 ∈ K ∪ {key} := hrep.keys_mem hkeys
  by_cases htaken : ∃ e ∈ index.toList, Key.order.same e.1 key = true
  · obtain ⟨e, he, hsame⟩ := htaken
    exact .inl ⟨e, he, hsame,
      insertAs_taken (insert_taken hS hmem hrep.sorted hkeysHere row he hsame)⟩
  · have hnew : ∀ e ∈ index.toList, Key.order.same e.1 key = false := by
      intro e he
      simpa using fun hsame => htaken ⟨e, he, hsame⟩
    obtain ⟨hok, hplaced, hsize⟩ := insert_new hS hmem hrep.sorted hkeysHere row hnew
    rcases houtcome : index.insert Key.order key row with ⟨index', result⟩
    rw [houtcome] at hok hplaced hsize
    obtain rfl : result = .ok () := hok
    exact .inr ⟨index', hnew, insertAs_ok houtcome, hplaced, hsize⟩

/-- An insertion is refused if the key is taken, and else adds to what is represented. -/
theorem Represents.insertAs (htotal : Key.order.TotalOn (K ∪ {key})) (table : String) (row : Row) :
    (∃ e ∈ accepted, Key.order.same e.1 key = true ∧
      index.insertAs table key row = (index, .error (key.conflict table))) ∨
    ∃ index', (∀ e ∈ accepted, Key.order.same e.1 key = false) ∧
      index.insertAs table key row = (index', .ok ()) ∧
      index'.Represents (accepted ++ [(key, row)]) := by
  obtain ⟨line, _, place, hS⟩ := htotal
  rcases hrep.insert_cases hkeys hS table row with
    ⟨e, he, hsame, hinsert⟩ | ⟨index', hnew, hinsert, hplaced, hsize⟩
  · exact .inl ⟨e, hrep.perm.mem_iff.1 he, hsame, hinsert⟩
  · have hkeysHere : ∀ e ∈ index.toList, e.1 ∈ K ∪ {key} := hrep.keys_mem hkeys
    have hkeysNow : ∀ e ∈ index'.toList, e.1 ∈ K ∪ {key} := by
      intro e he
      rcases List.mem_cons.1 (hplaced.perm.mem_iff.1 he) with rfl | he
      · exact Set.mem_union_right K rfl
      · exact hkeysHere e he
    have hascending := hplaced.ascending ((ascending_iff_sorted hS hkeysHere).2 hrep.sorted)
    have hperm : index'.toList.Perm (accepted ++ [(key, row)]) :=
      (hplaced.perm.trans (hrep.perm.cons _)).trans (List.perm_append_singleton _ _).symm
    refine .inr ⟨index', fun e he => hnew e (hrep.perm.mem_iff.2 he), hinsert, ?_⟩
    exact
      { sorted := (ascending_iff_sorted hS hkeysNow).1 hascending
        perm := hperm
        size_eq := by simpa [hrep.size_eq] using hsize }

end Step

/-- Every call is answered as by a finite map. -/
theorem Represents.answer (hrep : index.Represents accepted) (hkeys : ∀ e ∈ accepted, e.1 ∈ K)
    (table : String) {call : IndexCall}
    (htotal : ∀ key ∈ call.asked, Key.order.TotalOn (K ∪ {key})) :
    ∃ accepted', Answered table accepted call (index.answer table call).2 accepted' ∧
      (index.answer table call).1.Represents accepted' := by
  have hitems := index.items_eq Key.order
  cases call with
  | insert key row =>
    rcases hrep.insertAs hkeys (htotal key List.mem_cons_self) table row with
      ⟨e, he, hsame, hinsert⟩ | ⟨index', hnew, hinsert, hrep'⟩
    · rw [answer_insert hinsert]
      exact ⟨accepted, .taken he hsame, hrep⟩
    · rw [answer_insert hinsert]
      exact ⟨accepted ++ [(key, row)], .inserted hnew, hrep'⟩
  | get key =>
    refine ⟨accepted, ?_, hrep⟩
    have hfind := hrep.find? hkeys (htotal key List.mem_cons_self)
    unfold PrimaryIndex.answer
    dsimp only
    rw [hfind]
    cases hfound : index.toList.find? fun e => Key.order.same e.1 key with
    | none =>
      refine .missing fun e he => ?_
      simpa using List.find?_eq_none.1 hfound e (hrep.perm.mem_iff.2 he)
    | some e =>
      have hsame := List.find?_some hfound
      exact .found (hrep.perm.mem_iff.1 (List.mem_of_find?_eq_some hfound)) hsame
  | contains key =>
    refine ⟨accepted, ?_, hrep⟩
    have hfind := hrep.find? hkeys (htotal key List.mem_cons_self)
    have hany : ((index.toList.find? fun e => Key.order.same e.1 key).map (·.2)).isSome =
        accepted.any fun e => Key.order.same e.1 key := by
      rw [Option.isSome_map, List.isSome_find?, hrep.perm.any_eq]
    unfold PrimaryIndex.answer PrimaryIndex.contains
    dsimp only
    rw [hfind]
    simp only [Except.map, Except.mapError, hany]
    exact .contains
  | len =>
    refine ⟨accepted, ?_, hrep⟩
    unfold PrimaryIndex.answer
    rw [hrep.size_eq]
    exact .len
  | items =>
    refine ⟨accepted, ?_, hrep⟩
    unfold PrimaryIndex.answer
    dsimp only
    rw [hitems]
    exact .items hrep.perm hrep.sorted
  | keys =>
    refine ⟨accepted, ?_, hrep⟩
    unfold PrimaryIndex.answer PrimaryIndex.keys
    dsimp only
    rw [hitems]
    exact .keys hrep.perm hrep.sorted

/-- The trees hold the same entries in the same order. -/
structure Alike (index other : TableIndex) : Prop where
  toList_eq : other.toList = index.toList
  size_eq : other.size = index.size

theorem Alike.represents {other : TableIndex} (halike : index.Alike other)
    (hrep : index.Represents accepted) : other.Represents accepted where
  sorted := by rw [halike.toList_eq]; exact hrep.sorted
  perm := by rw [halike.toList_eq]; exact hrep.perm
  size_eq := halike.size_eq.trans hrep.size_eq

/-- Trees with the same entries give the same answers and still have the same entries afterwards. -/
theorem Alike.answer {other : TableIndex} (halike : index.Alike other)
    (hrep : index.Represents accepted) (hkeys : ∀ e ∈ accepted, e.1 ∈ K) (table : String)
    {call : IndexCall} (htotal : ∀ key ∈ call.asked, Key.order.TotalOn (K ∪ {key})) :
    (other.answer table call).2 = (index.answer table call).2 ∧
      (index.answer table call).1.Alike (other.answer table call).1 := by
  have hother := halike.represents hrep
  cases call with
  | insert key row =>
    obtain ⟨line, _, place, hS⟩ := htotal key List.mem_cons_self
    have hascending := (ascending_iff_sorted hS (hrep.keys_mem hkeys)).2 hrep.sorted
    have hcases := hother.insert_cases hkeys hS table row
    rw [halike.toList_eq] at hcases
    rcases hrep.insert_cases hkeys hS table row with
      ⟨e, he, hsame, hinsert⟩ | ⟨index', hnew, hinsert, hplaced, hsize⟩
    · rcases hcases with ⟨-, -, -, hinsert'⟩ | ⟨-, hnew, -⟩
      · rw [answer_insert hinsert, answer_insert hinsert']
        exact ⟨rfl, halike⟩
      · exact absurd ((hnew e he).symm.trans hsame) (by decide)
    · rcases hcases with ⟨e, he, hsame, -⟩ | ⟨other', -, hinsert', hplaced', hsize'⟩
      · exact absurd ((hnew e he).symm.trans hsame) (by decide)
      · rw [answer_insert hinsert, answer_insert hinsert']
        refine ⟨rfl, hplaced'.unique hplaced hascending, ?_⟩
        rw [hsize, hsize', halike.size_eq]
  | get key =>
    have hfind := hrep.find? hkeys (htotal key List.mem_cons_self)
    have hfind' := hother.find? hkeys (htotal key List.mem_cons_self)
    rw [halike.toList_eq, ← hfind] at hfind'
    exact ⟨by simp only [PrimaryIndex.answer, hfind'], halike⟩
  | contains key =>
    have hfind := hrep.find? hkeys (htotal key List.mem_cons_self)
    have hfind' := hother.find? hkeys (htotal key List.mem_cons_self)
    rw [halike.toList_eq, ← hfind] at hfind'
    exact ⟨by simp only [PrimaryIndex.answer, PrimaryIndex.contains, hfind'], halike⟩
  | len => exact ⟨by simp only [PrimaryIndex.answer, halike.size_eq], halike⟩
  | items => exact ⟨by simp only [PrimaryIndex.answer, items_eq, halike.toList_eq], halike⟩
  | keys =>
    exact ⟨by simp only [PrimaryIndex.answer, PrimaryIndex.keys, items_eq, halike.toList_eq], halike⟩

theorem Represents.answers {other : TableIndex} (hrep : index.Represents accepted)
    (halike : index.Alike other) (hkeys : ∀ e ∈ accepted, e.1 ∈ K) (table : String)
    {calls : List IndexCall} (hoffered : ∀ call ∈ calls, ∀ key ∈ call.offered, key ∈ K)
    (htotal : ∀ call ∈ calls, ∀ key ∈ call.asked, Key.order.TotalOn (K ∪ {key})) :
    Consistent table accepted calls (index.answers table calls) ∧
      other.answers table calls = index.answers table calls := by
  induction calls generalizing index other accepted with
  | nil => exact ⟨.nil, rfl⟩
  | cons call calls ih =>
    obtain ⟨hofferedHere, hofferedRest⟩ := List.forall_mem_cons.1 hoffered
    obtain ⟨htotalHere, htotalRest⟩ := List.forall_mem_cons.1 htotal
    obtain ⟨accepted', hanswered, hrep'⟩ := hrep.answer hkeys table htotalHere
    obtain ⟨hanswer, halike'⟩ := halike.answer hrep hkeys table htotalHere
    have hkeys' : ∀ e ∈ accepted', e.1 ∈ K := by
      intro e he
      rcases hanswered.mem_offered he with hold | hnew
      · exact hkeys e hold
      · exact hofferedHere e.1 hnew
    obtain ⟨hrest, heq⟩ := ih hrep' halike' hkeys' hofferedRest htotalRest
    refine ⟨.cons hanswered hrest, ?_⟩
    exact congrArg₂ List.cons hanswer heq

/-- An index answers calls as a finite map in the order of its keys does, and the same for every
order of the tree, when each key that a call asks about is totally ordered with the keys that are
offered for insertion. A key that comes again is refused by name if it has words, and otherwise for
having none. -/
theorem answers_consistent (table : String) {t u : Nat} (ht : 2 ≤ t) (hu : 2 ≤ u)
    (calls : List IndexCall)
    (htotal : ∀ call ∈ calls, ∀ key ∈ call.asked,
      Key.order.TotalOn ({k | ∃ call ∈ calls, k ∈ call.offered} ∪ {key})) :
    Consistent table [] calls ((ofOrder t ht).answers table calls) ∧
      (ofOrder u hu).answers table calls = (ofOrder t ht).answers table calls := by
  have halike : (ofOrder t ht : TableIndex).Alike (ofOrder u hu) := ⟨rfl, rfl⟩
  refine (represents_ofOrder ht).answers halike (by simp) table ?_ htotal
  intro call hcall key hkey
  exact ⟨call, hcall, hkey⟩

/-- Two numbers, of which one comes twice, and a third that is only looked up. -/
theorem answers_consistent_whole_numbers :
    let calls : List IndexCall :=
      [.insert [.int 7] (.tuple [.int 7]), .insert [.int 5] (.tuple [.int 5]),
        .insert [.int 7] (.tuple []), .get [.int 5], .contains [.int 6], .len, .items]
    (∀ call ∈ calls, ∀ key ∈ call.asked,
      Key.order.TotalOn ({k | ∃ call ∈ calls, k ∈ call.offered} ∪ {key})) ∧
    Consistent "t" [] calls ((ofOrder 2 (by decide)).answers "t" calls) ∧
      (ofOrder 3 (by decide)).answers "t" calls = (ofOrder 2 (by decide)).answers "t" calls := by
  intro calls
  have htyped : ∀ n ∈ [5, 6, 7], [Value.int n] ∈
      {key | Key.Typed [.integer64] key ∧ Key.hasNaN key = false} := by
    intro n hn
    have hbounds : -2 ^ 63 ≤ n ∧ n < 2 ^ 63 := by
      simp only [List.mem_cons, List.not_mem_nil, or_false] at hn
      omega
    exact ⟨.cons (.whole rfl hbounds.1 hbounds.2) .nil, rfl⟩
  have hkeys : ∀ call ∈ calls, ∀ key ∈ call.asked ++ call.offered,
      ∃ n ∈ [5, 6, 7], key = [Value.int n] := by
    simp [calls, asked, offered]
  have htotal : ∀ call ∈ calls, ∀ key ∈ call.asked,
      Key.order.TotalOn ({k | ∃ call ∈ calls, k ∈ call.offered} ∪ {key}) := by
    intro call hcall key hkey
    refine (Key.totalOn_typed [.integer64]).mono ?_
    rintro k (⟨other, hother, hk⟩ | rfl)
    · obtain ⟨n, hn, rfl⟩ := hkeys other hother k (List.mem_append_right _ hk)
      exact htyped n hn
    · obtain ⟨n, hn, rfl⟩ := hkeys call hcall k (List.mem_append_left _ hkey)
      exact htyped n hn
  exact ⟨htotal, answers_consistent "t" (by decide) (by decide) calls htotal⟩

/-- A key that can be compared with itself is stored once. -/
theorem answers_insert_twice {t : Nat} (ht : 2 ≤ t) {key : Key} (htotal : Key.order.TotalOn {key})
    (table : String) (row other : Row) :
    (ofOrder t ht).answers table [.insert key row, .insert key other] =
      [.ok .done, .error (key.conflict table)] := by
  have hrefl : Key.order.same key key = true := by
    obtain ⟨line, _, place, halong⟩ := htotal
    simp [halong.same_eq key rfl key rfl]
  have hfirst : Key.order.TotalOn (∅ ∪ {key}) := by rwa [Set.empty_union]
  have hagain : Key.order.TotalOn ({key} ∪ {key}) := by rwa [Set.union_self]
  rcases (represents_ofOrder ht).insertAs (by simp) hfirst table row with
    ⟨e, he, -⟩ | ⟨index, -, hstored, hrep⟩
  · exact absurd he List.not_mem_nil
  · rcases hrep.insertAs (by simp) hagain table other with
      ⟨-, -, -, hrefused⟩ | ⟨-, hnew, -⟩
    · simp only [answers, answer_insert hstored, answer_insert hrefused]
      rfl
    · simp [hrefl] at hnew

/-- A number of 4301 digits can be compared, and its repetition is refused without a word about the
key. -/
theorem answers_long_number :
    let key : Key := [.int (10 ^ Fault.numeralLimit)]
    Key.order.TotalOn {key} ∧
      (ofOrder 2 (by decide)).answers "t" [.insert key (.tuple key), .insert key (.tuple key)] =
        [.ok .done, .error .integerLength] := by
  intro key
  have htotal : Key.order.TotalOn {key} :=
    ⟨ℤ, inferInstance, Key.whole, Key.along_whole.mono (Set.singleton_subset_iff.2 ⟨_, rfl⟩)⟩
  have hlong : ¬(Value.key key).Worded := by
    rw [Value.worded_key_iff, List.forall_mem_singleton]
    exact Value.not_worded_power
  refine ⟨htotal, ?_⟩
  rw [answers_insert_twice (by decide) htotal, Key.conflict_not_worded "t" hlong]

end PrimaryIndex

end KeyedRelations
