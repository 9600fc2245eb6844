import KeyedRelations.Proofs.Store.Actions
import KeyedRelations.Store.Derive
import Mathlib.Tactic.SplitIfs

/-!
# What operations leave behind

An operation on tables of the store makes one table and takes one number of the session that it is for,
or it fails and leaves nothing but a trace. In neither case does any other table or session change.
-/

namespace KeyedRelations.Store

variable {store : Store} {tables : List Table} {source : TableId} {context : Option SessionId}
  {t : Table} {s : Session} {r : Relation} {α : Type}

/-- Whether a relation is the result of an operation on a table, and on another one of these tables. -/
inductive Computed (tables : List Table) (t : Table) (r : Relation) : Prop
  | unary (op : UnaryOperation) (h : op.result t = .ok r)
  | binary (op : BinaryOperation) {other : TableId} {u : Table}
    (hu : tables[other.number]? = some u) (h : op.result t u = .ok r)

/-- The ways in which an operation on a table can end. -/
inductive Result (source : TableId) (context : Option SessionId) (store : Store) :
    EStateM.Result Fault Store TableId → Prop
  | made {t : Table} {s : Session} {r : Relation} {trace : List Trace.Entry}
    (ht : store.tables[source.number]? = some t) (hr : Computed store.tables t r)
    (hs : store.sessions[(context.getD t.session).number]? = some s) :
    Result source context store (.ok ⟨store.tables.length⟩
      { store with
        tables := store.tables ++
          [Table.ofRelation (context.getD t.session) (t.name ++ Text.decimal s.counter) r]
        sessions := store.sessions.set (context.getD t.session).number
          { s with counter := s.counter + 1 }
        trace })
  | refused {fault : Fault} {trace : List Trace.Entry} :
    Result source context store (.error fault { store with trace })

/-- Whether an action is an operation on one of these tables. -/
def Makes (tables : List Table) (source : TableId) (context : Option SessionId)
    (action : Action TableId) : Prop :=
  ∀ store : Store, store.tables = tables → Result source context store (action store)

/-! ## Rules -/

theorem Result.of_traced {trace : List Trace.Entry} {result : EStateM.Result Fault Store TableId}
    (h : Result source context { store with trace } result) : Result source context store result := by
  cases h with
  | made ht hr hs => exact .made ht hr hs
  | refused => exact .refused

theorem makes_throw (fault : Fault) : Makes tables source context (throw fault) :=
  fun _ _ => .refused

/-- A check that comes before an operation. -/
theorem makes_check {c : Prop} [Decidable c] {fault : Fault} {next : Unit → Action TableId}
    (hnext : ∀ u, Makes tables source context (next u)) :
    Makes tables source context (if c then throw fault >>= next else next ()) := by
  split
  · exact fun _ _ => .refused
  · exact hnext ()

/-- What is done quietly before an operation. -/
theorem Quiet.makes {action : Action α} {next : α → Action TableId} (haction : Quiet action)
    (hnext : ∀ a, Makes tables source context (next a)) :
    Makes tables source context (action >>= next) := by
  intro store htables
  obtain ⟨trace, htrace⟩ := haction store
  simp only [after, Bind.bind, EStateM.bind] at htrace ⊢
  generalize action store = result at htrace ⊢
  cases result with
  | ok a store' =>
    obtain rfl := htrace
    exact (hnext a { store with trace } htables).of_traced
  | error fault store' =>
    obtain rfl := htrace
    exact .refused

theorem makes_table {id : TableId} {next : Table → Action TableId}
    (hnext : ∀ t, tables[id.number]? = some t → Makes tables source context (next t)) :
    Makes tables source context (table id >>= next) := by
  rintro store rfl
  cases ht : store.tables[id.number]? with
  | some t =>
    rw [bind_ok (table_ok ht)]
    exact hnext t ht store rfl
  | none =>
    rw [bind_error (table_absent ht)]
    exact .refused

theorem makes_outcome {result : Except Fault α} {next : α → Action TableId}
    (hnext : ∀ a, result = .ok a → Makes tables source context (next a)) :
    Makes tables source context (outcome result >>= next) := by
  cases result with
  | ok a => exact hnext a rfl
  | error fault => exact fun _ _ => .refused

theorem derive_ok (ht : store.tables[source.number]? = some t)
    (hs : store.sessions[(context.getD t.session).number]? = some s) (r : Relation) :
    derive source context r store = .ok ⟨store.tables.length⟩ { store with
      tables := store.tables ++
        [Table.ofRelation (context.getD t.session) (t.name ++ Text.decimal s.counter) r]
      sessions := store.sessions.set (context.getD t.session).number
        { s with counter := s.counter + 1 } } := by
  unfold derive
  rw [bind_ok (table_ok ht), bind_ok (nextName_ok hs t.name)]
  rfl

theorem makes_derive (ht : tables[source.number]? = some t) (hr : Computed tables t r) :
    Makes tables source context (derive source context r) := by
  rintro store rfl
  cases hs : store.sessions[(context.getD t.session).number]? with
  | none =>
    unfold derive
    rw [bind_ok (table_ok ht), bind_error (nextName_absent hs t.name)]
    exact .refused
  | some s =>
    rw [derive_ok ht hs]
    exact .made ht hr hs

/-! ## Operations -/

theorem makes_applyUnary (tables : List Table) (op : UnaryOperation) (source : TableId)
    (context : Option SessionId) : Makes tables source context (applyUnary op source context) := by
  apply makes_table
  intro t ht
  apply (quiet_outcome _).makes
  intro line
  apply (quiet_report _ _ _).makes
  intro _
  apply makes_outcome
  intro r hr
  exact makes_derive ht (.unary op hr)

theorem makes_applyBinary (tables : List Table) (op : BinaryOperation) (source other : TableId)
    (context : Option SessionId) :
    Makes tables source context (applyBinary op source other context) := by
  apply makes_table
  intro t ht
  apply makes_table
  intro u hu
  have hresult : Makes tables source context
      (do derive source context (← outcome (op.result t u))) :=
    makes_outcome fun r hr => makes_derive ht (.binary op hu hr)
  cases op.line? t u with
  | some line => exact (quiet_report _ _ _).makes fun _ => hresult
  | none => exact hresult

theorem quiet_items (argument : Argument) : Quiet argument.items := by
  cases argument with
  | value v => cases v <;> exact fun store => ⟨store.trace, rfl⟩
  | table id => exact (quiet_table id).bind fun _ => quiet_pure _
  | predicate p => exact quiet_throw _

theorem makes_project (tables : List Table) (source : TableId) (attributes : Argument)
    (context : Option SessionId) : Makes tables source context (project source attributes context) := by
  apply (quiet_items attributes).makes
  intro items
  exact (quiet_outcome _).makes fun names => makes_applyUnary tables _ source context

theorem makes_equiJoin (tables : List Table) (source : TableId) (left right : Argument)
    (other : TableId) (context : Option SessionId) :
    Makes tables source context (equiJoin source left right other context) := by
  apply (quiet_items left).makes
  intro leftItems
  apply (quiet_items right).makes
  intro rightItems
  apply (quiet_outcome _).makes
  intro leftNames
  apply (quiet_outcome _).makes
  intro rightNames
  exact makes_applyBinary tables _ source other context

theorem makes_select (tables : List Table) (source : TableId) (argument : Argument) :
    Makes tables source none (select source argument) := by
  unfold select
  split
  · exact makes_applyUnary tables _ source none
  · apply (quiet_table _).makes
    intro other
    exact (quiet_table source).makes fun t => makes_throw _
  · split_ifs
    · exact makes_applyUnary tables _ source none
    · exact makes_applyUnary tables _ source none
  · exact makes_applyUnary tables _ source none

theorem quiet_shown (arguments : List Argument) : Quiet (arguments.mapM Argument.shown) := by
  induction arguments with
  | nil => exact quiet_pure []
  | cons argument arguments ih =>
    rw [List.mapM_cons]
    have hargument : Quiet argument.shown := by
      cases argument with
      | value v => exact quiet_pure _
      | table id => exact (quiet_table id).bind fun _ => quiet_pure _
      | predicate p => exact quiet_pure _
    exact hargument.bind fun _ => ih.bind fun _ => quiet_pure _

theorem makes_join (tables : List Table) (source : TableId) (arguments : List Argument)
    (keywords : List (String × Value)) :
    Makes tables source none (join source arguments keywords) := by
  unfold join
  apply makes_check
  intro _
  split
  · exact (quiet_outcome _).makes fun _ => makes_applyBinary tables _ source _ none
  · exact makes_applyBinary tables _ source _ none
  · exact makes_equiJoin tables source _ _ _ none
  · exact (quiet_shown _).makes fun _ => makes_throw _
  · exact makes_throw _

end KeyedRelations.Store
