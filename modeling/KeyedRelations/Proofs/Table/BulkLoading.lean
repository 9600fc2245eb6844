import KeyedRelations.Proofs.Table.Ordered
import KeyedRelations.Table.Builder

/-!
# Rows in bulk

A builder does to its table what insertions one after the other do, and keeps the answers: an accepted
row counts, a refused one is remembered with its fault. In a table with an ordered index the answers
depend on what fits, on the keys that were in the index before, and on the rows accepted since. A row
without words is neither accepted nor refused: the builder stops at it, and does not get to the rows
behind it.
-/

namespace KeyedRelations

/-! ## Answers -/

/-- The tuples that are accepted, in order. -/
def accepted (answers : List (Except Fault Tuple)) : List Tuple :=
  answers.filterMap fun
    | .ok values => some values
    | .error _ => none

/-- The rows that are refused, in order, each with its fault. -/
def refused (rows : List Row) (answers : List (Except Fault Tuple)) : List (Row × Fault) :=
  (rows.zip answers).filterMap fun
    | (_, .ok _) => none
    | (row, .error fault) => some (row, fault)

/-- Whether every fault is one for which a row is refused. -/
def Settled (answers : List (Except Fault Tuple)) : Prop :=
  ∀ fault, .error fault ∈ answers → fault.rejectsRow = true

section Answers

variable (values : Tuple) (fault : Fault) (row : Row) (rows : List Row)
  (answers : List (Except Fault Tuple))

@[simp]
theorem accepted_nil : accepted [] = [] := rfl

@[simp]
theorem accepted_ok : accepted (.ok values :: answers) = values :: accepted answers := rfl

@[simp]
theorem accepted_error : accepted (.error fault :: answers) = accepted answers := rfl

@[simp]
theorem refused_nil : refused [] answers = [] := rfl

@[simp]
theorem refused_ok : refused (row :: rows) (.ok values :: answers) = refused rows answers := rfl

@[simp]
theorem refused_error :
    refused (row :: rows) (.error fault :: answers) = (row, fault) :: refused rows answers := rfl

theorem accepted_cons (answer : Except Fault Tuple) :
    accepted (answer :: answers) = accepted [answer] ++ accepted answers := by
  cases answer <;> rfl

@[simp]
theorem accepted_append (later : List (Except Fault Tuple)) :
    accepted (answers ++ later) = accepted answers ++ accepted later :=
  List.filterMap_append

theorem refused_append {rows : List Row} {answers : List (Except Fault Tuple)}
    (h : rows.length = answers.length) (rows' : List Row) (later : List (Except Fault Tuple)) :
    refused (rows ++ rows') (answers ++ later) = refused rows answers ++ refused rows' later := by
  unfold refused
  rw [List.zip_append h, List.filterMap_append]

theorem settled_append {answers later : List (Except Fault Tuple)} :
    Settled (answers ++ later) ↔ Settled answers ∧ Settled later := by
  simp only [Settled, List.mem_append, or_imp, forall_and]

/-- Every row is accepted or refused. -/
theorem length_accepted_add_refused {rows : List Row} {answers : List (Except Fault Tuple)}
    (h : answers.length = rows.length) :
    (accepted answers).length + (refused rows answers).length = rows.length := by
  induction rows generalizing answers with
  | nil =>
    obtain rfl := List.length_eq_zero_iff.1 h
    rfl
  | cons row rows ih =>
    cases answers with
    | nil => simp at h
    | cons answer answers =>
      have hrest := ih (Nat.succ.inj h)
      cases answer with
      | ok values => simp; omega
      | error fault => simp; omega

end Answers

/-! ## Insertions one after the other -/

namespace Table

/-- The table after the rows have been inserted one after the other, with the answers. -/
def insertAll (t : Table) : List Row → Table × List (Except Fault Tuple)
  | [] => (t, [])
  | row :: rows =>
    let (t, answer) := t.insert row
    let (t, answers) := t.insertAll rows
    (t, answer :: answers)

theorem insertAll_cons (t : Table) (row : Row) (rows : List Row) :
    t.insertAll (row :: rows) =
      (((t.insert row).1.insertAll rows).1, (t.insert row).2 :: ((t.insert row).1.insertAll rows).2) :=
  rfl

theorem insert_not_worded (t : Table) {row : Row} (hrow : ¬row.toValue.Worded) :
    t.insert row = (t, .error .integerLength) := by
  simp only [insert, examine_not_worded hrow]

theorem length_insertAll (t : Table) (rows : List Row) : (t.insertAll rows).2.length = rows.length := by
  induction rows generalizing t with
  | nil => rfl
  | cons row rows ih => simp [insertAll_cons, ih]

theorem insertAll_append (t : Table) (xs ys : List Row) :
    t.insertAll (xs ++ ys) = (((t.insertAll xs).1.insertAll ys).1,
      (t.insertAll xs).2 ++ ((t.insertAll xs).1.insertAll ys).2) := by
  induction xs generalizing t with
  | nil => rfl
  | cons x xs ih => simp [insertAll_cons, ih]

/-! ## What decides on a row -/

/-- What becomes of a row that is offered to a table when these tuples have been accepted before. -/
def verdict (t : Table) (earlier : List Tuple) (row : Row) : Except Fault Tuple :=
  match t.schema.validate row with
  | .error fault => .error fault
  | .ok values =>
    let key := t.schema.keyOf values
    if t.hasKey key || earlier.any fun other => Key.order.same (t.schema.keyOf other) key then
      .error (.keyConflict t.name key)
    else .ok values

variable {t u : Table} {row : Row} {answer : Except Fault Tuple}

theorem Inserted.answer_eq (h : t.Inserted row (u, answer)) : answer = t.verdict [] row := by
  unfold verdict
  cases h with
  | unfit invalid => simp [invalid]
  | taken valid present => simp [valid, present]
  | stored valid new _ => simp [valid, new]

theorem Inserted.settled (h : t.Inserted row (u, answer)) :
    ∀ fault, answer = .error fault → fault.rejectsRow = true := by
  intro fault hfault
  cases h <;> cases hfault <;> rfl

theorem Inserted.same (h : t.Inserted row (u, answer)) : u.schema = t.schema ∧ u.name = t.name := by
  cases h <;> exact ⟨rfl, rfl⟩

/-- The keys in the index afterwards are those from before, and that of the row if it is accepted. -/
theorem Inserted.hasKey_eq (h : t.Inserted row (u, answer)) (key : Key) :
    u.hasKey key = (t.hasKey key ||
      (accepted [answer]).any fun other => Key.order.same (t.schema.keyOf other) key) := by
  cases h with
  | unfit _ => simp
  | taken _ _ => simp
  | stored _ _ entries =>
    unfold hasKey
    rw [entries.any_eq, List.any_append]
    simp

/-- To the table after an insertion, an accepted row counts as a row of its own. -/
theorem Inserted.verdict_eq (h : t.Inserted row (u, answer)) (earlier : List Tuple) (other : Row) :
    u.verdict earlier other = t.verdict (accepted [answer] ++ earlier) other := by
  obtain ⟨hschema, hname⟩ := h.same
  unfold verdict
  rw [hschema, hname]
  cases t.schema.validate other with
  | error fault => rfl
  | ok values => simp only [h.hasKey_eq, List.any_append, Bool.or_assoc]

theorem Inserted.freeOfNaN (h : t.Inserted row (u, answer)) (hfree : t.FreeOfNaN)
    (hrow : t.schema.FreeOfNaN row) : u.FreeOfNaN := by
  cases h with
  | unfit _ => exact hfree
  | taken _ _ => exact hfree
  | stored valid _ _ =>
    refine List.forall_mem_append.2 ⟨hfree, ?_⟩
    rw [List.forall_mem_singleton]
    exact hrow _ valid

theorem Inserted.rows_eq (h : t.Inserted row (u, answer)) :
    u.rows = t.rows ++ (accepted [answer]).map .tuple := by
  cases h <;> simp

/-! ## What decides on many rows -/

/-- What insertions one after the other leave of an ordered table, and what they answer. -/
structure Bulk (t : Table) (rows : List Row) (u : Table) (answers : List (Except Fault Tuple)) :
    Prop where
  rows_eq : u.rows = t.rows ++ (accepted answers).map .tuple
  settled : Settled answers
  verdicts : ∀ i, answers[i]? = rows[i]?.map (t.verdict (accepted (answers.take i)))

theorem Ordered.bulk_insertAll (ht : t.Ordered) (hfree : t.FreeOfNaN) {rows : List Row}
    (hrows : ∀ row ∈ rows, t.schema.FreeOfNaN row) (hworded : ∀ row ∈ rows, row.toValue.Worded) :
    t.Bulk rows (t.insertAll rows).1 (t.insertAll rows).2 := by
  induction rows generalizing t with
  | nil =>
    constructor
    · simp [insertAll]
    · exact fun fault hfault => absurd hfault List.not_mem_nil
    · simp [insertAll]
  | cons row rows ih =>
    obtain ⟨hrow, hrest⟩ := List.forall_mem_cons.1 hrows
    obtain ⟨hwords, hwordsRest⟩ := List.forall_mem_cons.1 hworded
    have hinserted : t.Inserted row ((t.insert row).1, (t.insert row).2) :=
      ht.inserted hfree hrow hwords
    have hnext := ht.insert row
    have hrestNow : ∀ other ∈ rows, (t.insert row).1.schema.FreeOfNaN other := by
      rw [hinserted.same.1]
      exact hrest
    have hlast := ih hnext (hinserted.freeOfNaN hfree hrow) hrestNow hwordsRest
    rw [insertAll_cons]
    generalize (t.insert row).1 = next at hinserted hlast
    generalize (t.insert row).2 = answer at hinserted
    refine ⟨?_, ?_, ?_⟩
    · dsimp only
      rw [hlast.rows_eq, hinserted.rows_eq, accepted_cons (next.insertAll rows).2 answer,
        List.map_append, List.append_assoc]
    · intro fault hfault
      rcases List.mem_cons.1 hfault with hfirst | hlater
      · exact hinserted.settled fault hfirst.symm
      · exact hlast.settled fault hlater
    · intro i
      cases i with
      | zero => simp [hinserted.answer_eq]
      | succ i =>
        rw [List.take_succ_cons, accepted_cons (List.take i _) answer, List.getElem?_cons_succ,
          List.getElem?_cons_succ, hlast.verdicts i]
        congr 1
        funext other
        exact hinserted.verdict_eq _ other

/-- Whether each row is answered as is right: it is accepted if it fits and its key is neither in the
index nor that of a row accepted before, and is refused otherwise with what is wrong about it. -/
structure Decides (t : Table) (rows : List Row) (answers : List (Except Fault Tuple)) : Prop where
  length_eq : answers.length = rows.length
  accepts_iff : ∀ (i : Nat) (row : Row) (values : Tuple), rows[i]? = some row →
    (answers[i]? = some (Except.ok values) ↔ t.schema.validate row = .ok values ∧
      t.index.contains Key.order (t.schema.keyOf values) = .ok false ∧
      ∀ earlier ∈ accepted (answers.take i),
        Key.order.same (t.schema.keyOf earlier) (t.schema.keyOf values) = false)
  unfit : ∀ (i : Nat) (row : Row) (fault : Fault), rows[i]? = some row → t.schema.validate row = .error fault →
    answers[i]? = some (Except.error fault) ∧ ∃ cause, fault = .typing cause
  taken : ∀ (i : Nat) (row : Row) (values : Tuple), rows[i]? = some row → t.schema.validate row = .ok values →
    answers[i]? ≠ some (Except.ok values) →
    answers[i]? = some (Except.error (.keyConflict t.name (t.schema.keyOf values)))

theorem Ordered.decides_insertAll (ht : t.Ordered) (hfree : t.FreeOfNaN) {rows : List Row}
    (hrows : ∀ row ∈ rows, t.schema.FreeOfNaN row) (hworded : ∀ row ∈ rows, row.toValue.Worded) :
    t.Decides rows (t.insertAll rows).2 := by
  have hbulk := ht.bulk_insertAll hfree hrows hworded
  refine ⟨t.length_insertAll rows, ?_, ?_, ?_⟩
  · intro i row values hrow
    rw [hbulk.verdicts i, hrow]
    unfold verdict
    cases hvalid : t.schema.validate row with
    | error fault => simp [hvalid]
    | ok valid =>
      have htyped := (Schema.fitting_keyOf (Schema.validate_eq_ok.1 hvalid).2).typed
      have hnan := hrows row (List.mem_of_getElem? hrow) valid hvalid
      have hcontains := ht.contains_eq hfree htyped hnan
      simp only [Option.map_some, hvalid]
      constructor
      · intro haccepted
        split_ifs at haccepted with htaken
        · cases haccepted
        · cases haccepted
          rw [Bool.or_eq_true, not_or, Bool.not_eq_true, Bool.not_eq_true, List.any_eq_false] at htaken
          rw [hcontains, htaken.1]
          refine ⟨rfl, rfl, ?_⟩
          simpa using htaken.2
      · rintro ⟨hvalues, hold, hnew⟩
        cases hvalues
        rw [hcontains] at hold
        have habsent : t.hasKey (t.schema.keyOf values) = false := Except.ok.inj hold
        rw [if_neg]
        simpa [habsent] using hnew
  · intro i row fault hrow hvalid
    refine ⟨?_, Schema.error_validate hvalid⟩
    rw [hbulk.verdicts i, hrow]
    simp [verdict, hvalid]
  · intro i row values hrow hvalid hrefused
    rw [hbulk.verdicts i, hrow] at hrefused ⊢
    simp only [Option.map_some, verdict, hvalid] at hrefused ⊢
    split_ifs at hrefused ⊢ with htaken
    · rfl
    · exact absurd rfl hrefused

end Table

namespace Builder

variable (b : Builder)

/-- The builder after rows that have been given these answers, and that have made this table. -/
def loaded (t : Table) (rows : List Row) (answers : List (Except Fault Tuple)) : Builder where
  table := t
  offered := b.offered ++ rows
  rejected := b.rejected ++ refused rows answers
  count := b.count + (accepted answers).length

theorem append_eq {row : Row} {t : Table} {answer : Except Fault Tuple}
    (h : b.table.insert row = (t, answer)) (hanswer : Settled [answer]) :
    b.append row = (b.loaded t [row] [answer], .ok answer.isOk) := by
  unfold append loaded
  rw [h]
  cases answer with
  | ok values => simp [accepted, refused, Except.isOk, Except.toBool]
  | error fault =>
    have hrejects : fault.rejectsRow = true := hanswer fault List.mem_cons_self
    simp [hrejects, accepted, refused, Except.isOk, Except.toBool]

theorem appendAll_eq (rows : List Row) (hanswers : Settled (b.table.insertAll rows).2) :
    b.appendAll rows =
      (b.loaded (b.table.insertAll rows).1 rows (b.table.insertAll rows).2, .ok ()) := by
  induction rows generalizing b with
  | nil => simp [appendAll, loaded, Table.insertAll]
  | cons row rows ih =>
    rw [Table.insertAll_cons] at hanswers ⊢
    rw [← List.singleton_append, settled_append] at hanswers
    obtain ⟨hfirst, hrest⟩ := hanswers
    have happend := b.append_eq (Prod.mk.eta (p := b.table.insert row)).symm hfirst
    have hall := ih (b.loaded (b.table.insert row).1 [row] [(b.table.insert row).2]) hrest
    rw [appendAll, happend]
    dsimp only
    rw [hall]
    cases hanswer : (b.table.insert row).2 <;>
      simp [loaded, accepted, refused, Nat.add_assoc, Nat.add_comm]

/-- A builder leaves the table that insertions would leave, and splits the rows by their answers. -/
theorem extend_eq (rows : List Row) (hanswers : Settled (b.table.insertAll rows).2) :
    b.extend rows = (b.loaded (b.table.insertAll rows).1 rows (b.table.insertAll rows).2,
      .ok (accepted (b.table.insertAll rows).2).length) := by
  unfold extend
  rw [b.appendAll_eq rows hanswers]
  simp [Except.map, loaded]

theorem appendAll_append {xs : List Row} {loaded : Builder} (h : b.appendAll xs = (loaded, .ok ()))
    (ys : List Row) : b.appendAll (xs ++ ys) = loaded.appendAll ys := by
  induction xs generalizing b with
  | nil =>
    cases h
    rfl
  | cons x xs ih =>
    rw [appendAll] at h
    rw [List.cons_append, appendAll]
    rcases happend : b.append x with ⟨next, fault | _⟩
    · rw [happend] at h
      cases h
    · rw [happend] at h
      exact ih next h

/-- A row without words stops a builder, which has loaded the rows in front of it. -/
theorem extend_stops {xs : List Row} {row : Row} (hanswers : Settled (b.table.insertAll xs).2)
    (hrow : ¬row.toValue.Worded) (ys : List Row) :
    b.extend (xs ++ row :: ys) =
      ({ b.loaded (b.table.insertAll xs).1 xs (b.table.insertAll xs).2 with
          offered := b.offered ++ xs ++ [row] }, .error .integerLength) := by
  have hloaded := b.appendAll_eq xs hanswers
  have hstop (front : Builder) : front.append row =
      ({ front with offered := front.offered ++ [row] }, .error .integerLength) := by
    simp [append, front.table.insert_not_worded hrow, Fault.rejectsRow]
  unfold extend
  rw [b.appendAll_append hloaded, appendAll, hstop]
  rfl

theorem loaded_loaded (t u : Table) {xs ys : List Row} {answers later : List (Except Fault Tuple)}
    (h : answers.length = xs.length) :
    (b.loaded t xs answers).loaded u ys later = b.loaded u (xs ++ ys) (answers ++ later) := by
  simp [loaded, refused_append h.symm, Nat.add_assoc]

end Builder

end KeyedRelations
