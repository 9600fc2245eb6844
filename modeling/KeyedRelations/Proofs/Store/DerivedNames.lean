import KeyedRelations.Proofs.Store.Growth
import KeyedRelations.Proofs.Text.Decimal

/-!
# Names of results

The numbers that the results of a session are named after only rise, whatever else is done in between.
So the results of tables of one name have different names. Results of tables of different names have
the same name just if the name of the one source ends in the digits that the other number begins with.
-/

namespace KeyedRelations

namespace Text

/-- Digits in front do not make a number smaller. -/
theorem le_of_toDigits_eq_append {m n : Nat} {lead : List Char}
    (h : Nat.toDigits 10 m = lead ++ Nat.toDigits 10 n) : n ≤ m := by
  have hvalue := congrArg (Nat.ofDigitChars 10 · 0) h
  simp only [Nat.ofDigitChars_append, Nat.ofDigitChars_ten_toDigits] at hvalue
  rw [Nat.ofDigitChars_eq_ofDigitChars_zero, Nat.ofDigitChars_ten_toDigits] at hvalue
  omega

/-- A name with a number and one with a higher number are the same just if the first name goes on
where the higher number begins. -/
theorem append_decimal_eq_iff {base other : String} {m n : Nat} (hlt : m < n) :
    base ++ decimal m = other ++ decimal n ↔
      ∃ lead, base = other ++ lead ∧ decimal n = lead ++ decimal m := by
  constructor
  · intro h
    have hchars := congrArg String.toList h
    rw [String.toList_append, String.toList_append, toList_decimal, toList_decimal] at hchars
    rcases List.append_eq_append_iff.1 hchars with ⟨lead, -, hm⟩ | ⟨lead, hbase, hn⟩
    · exact absurd (le_of_toDigits_eq_append hm) (by omega)
    · refine ⟨String.ofList lead, String.toList_inj.1 ?_, String.toList_inj.1 ?_⟩
      · rw [hbase, String.toList_append, String.toList_ofList]
      · rw [toList_decimal, hn, String.toList_append, toList_decimal, String.toList_ofList]
  · rintro ⟨lead, rfl, hn⟩
    rw [hn, String.append_assoc]

end Text

namespace Store

/-! ## Derivations -/

/-- The tables that an operation has been on and has made. -/
structure Derivation where
  source : TableId
  table : TableId
  deriving DecidableEq

/-- What a call makes of a table, if it is an operation and succeeds. -/
def Call.derivation? (call : Call) (store : Store) : Option Derivation :=
  match call.operation? with
  | some (source, _, action) =>
    match action store with
    | .ok table _ => some ⟨source, table⟩
    | .error .. => none
  | none => none

/-- All that a run makes of tables, in order. -/
def derivations : List Call → Store → List Derivation
  | [], _ => []
  | call :: calls, store =>
    (call.derivation? store).toList ++ derivations calls (after (perform call) store)

/-- Whether the table of a derivation is named after its source and a number. -/
structure Derivation.Made (d : Derivation) (store : Store) (t : Table) (base : String)
    (number : Nat) : Prop where
  source : ∃ u, store.tables[d.source.number]? = some u ∧ u.name = base
  table : store.tables[d.table.number]? = some t
  name : t.name = base ++ Text.decimal number

variable {store store' : Store} {call : Call} {d e : Derivation} {t t' : Table}
  {base base' : String} {number number' : Nat}

theorem Derivation.Made.unique (h : d.Made store t base number)
    (h' : d.Made store t' base' number') : t = t' ∧ base = base' ∧ number = number' := by
  obtain ⟨u, hu, rfl⟩ := h.source
  obtain ⟨u', hu', rfl⟩ := h'.source
  obtain rfl := Option.some.inj (hu.symm.trans hu')
  obtain rfl := Option.some.inj (h.table.symm.trans h'.table)
  exact ⟨rfl, rfl, Text.decimal_injective (String.append_right_inj _ |>.1 (h.name.symm.trans h'.name))⟩

theorem Derivation.Made.extends (h : d.Made store t base number) (hstore : Extends store store') :
    ∃ t', d.Made store' t' base number ∧ t'.session = t.session := by
  obtain ⟨u, hu, hname⟩ := h.source
  obtain ⟨u', hu', huname, -⟩ := hstore.table _ u hu
  obtain ⟨t', ht', htname, hsession⟩ := hstore.table _ t h.table
  exact ⟨t', ⟨⟨u', hu', huname.trans hname⟩, ht', htname.trans h.name⟩, hsession⟩

/-- An operation that succeeds takes the number at which its session stands. -/
theorem made_of_derivation? (h : call.derivation? store = some d) :
    ∃ t base s, d.Made (after (perform call) store) t base s.counter ∧
      store.sessions[t.session.number]? = some s ∧
      (after (perform call) store).sessions =
        store.sessions.set t.session.number { s with counter := s.counter + 1 } := by
  unfold Call.derivation? at h
  cases hoperation : call.operation? with
  | none =>
    rw [hoperation] at h
    cases h
  | some operation =>
    obtain ⟨source, context, action⟩ := operation
    rw [hoperation] at h
    dsimp only at h
    obtain ⟨hperform, hmakes⟩ := Call.perform_operation hoperation
    have hresult := hmakes store.tables store rfl
    rw [hperform, after_discard]
    unfold after
    generalize action store = result at h hresult ⊢
    cases hresult with
    | refused => cases h
    | @made u s r trace hu _ hs =>
      cases h
      refine ⟨_, u.name, s, ⟨⟨u, ?_, rfl⟩, List.getElem?_concat_length, rfl⟩, hs, rfl⟩
      obtain ⟨hlt, -⟩ := List.getElem?_eq_some_iff.1 hu
      exact (List.getElem?_append_left hlt).trans hu

/-- What a run derives is named after its source and the number at which the session stands at the call
that derives it. -/
theorem made_of_mem_derivations {calls : List Call} (hd : d ∈ derivations calls store) :
    ∃ (before : List Call) (call : Call) (later : List Call) (t : Table) (base : String)
        (s : Session),
      calls = before ++ call :: later ∧ call.derivation? (runAll before store) = some d ∧
        (runAll before store).sessions[t.session.number]? = some s ∧
        d.Made (runAll calls store) t base s.counter := by
  induction calls generalizing store with
  | nil => exact absurd hd List.not_mem_nil
  | cons call calls ih =>
    rcases List.mem_append.1 hd with hnow | hlater
    · have hmakes := Option.mem_toList.1 hnow
      obtain ⟨t, base, s, hmade, hs, -⟩ := made_of_derivation? hmakes
      obtain ⟨t', hmade', hsession⟩ := hmade.extends (extends_runAll calls _)
      exact ⟨[], call, calls, t', base, s, rfl, hmakes, hsession ▸ hs, hmade'⟩
    · obtain ⟨before, other, later, t, base, s, rfl, hmakes, hs, hmade⟩ := ih hlater
      exact ⟨call :: before, other, later, t, base, s, rfl, hmakes, hs, hmade⟩

/-- The numbers in a run are none that the sessions have given before. -/
theorem le_of_mem_derivations {calls : List Call} (hd : d ∈ derivations calls store)
    (hmade : d.Made (runAll calls store) t base number) {s : Session}
    (hs : store.sessions[t.session.number]? = some s) : s.counter ≤ number := by
  obtain ⟨before, _, _, t', _, s', -, -, hs', hmade'⟩ := made_of_mem_derivations hd
  obtain ⟨rfl, -, rfl⟩ := hmade.unique hmade'
  obtain ⟨s'', hs'', hcounter⟩ := (extends_runAll before store).session _ s hs
  cases hs''.symm.trans hs'
  exact hcounter

/-- The numbers of what a run derives for one session rise. -/
theorem pairwise_derivations (calls : List Call) (store : Store) :
    (derivations calls store).Pairwise fun d e => ∀ (t t' : Table) (base base' : String)
        (number number' : Nat),
      d.Made (runAll calls store) t base number → e.Made (runAll calls store) t' base' number' →
      t.session = t'.session → number < number' := by
  induction calls generalizing store with
  | nil => exact .nil
  | cons call calls ih =>
    refine List.pairwise_append.2 ⟨?_, ih _, ?_⟩
    · cases call.derivation? store <;> simp
    · intro d hd e he t t' base base' number number' hdMade heMade hsession
      obtain ⟨u, _, s, hmade, hs, hsessions⟩ := made_of_derivation? (Option.mem_toList.1 hd)
      obtain ⟨hlt, -⟩ := List.getElem?_eq_some_iff.1 hs
      obtain ⟨u', hmade', hu⟩ := hmade.extends (extends_runAll calls _)
      obtain ⟨rfl, -, rfl⟩ := hdMade.unique hmade'
      -- The rest of the run begins with a counter that has passed the first number.
      have hnext := List.getElem?_set_self (a := { s with counter := s.counter + 1 }) hlt
      rw [← hsessions, ← hu, hsession] at hnext
      exact le_of_mem_derivations he heMade hnext

/-- The results of any run are named after their sources and the numbers at which their sessions stand
when they are derived, and these numbers rise. Two
results of a session have one name just if the source of the earlier one has the name of the other
source with the first digits of the higher number behind it, so never if the sources have one name. -/
theorem derived_names (settings : Settings) (files : FileTree) (calls : List Call) :
    let start := initial settings files
    (∀ d ∈ derivations calls start,
      ∃ (before : List Call) (call : Call) (later : List Call) (t : Table) (base : String)
          (s : Session),
        calls = before ++ call :: later ∧ call.derivation? (runAll before start) = some d ∧
          (runAll before start).sessions[t.session.number]? = some s ∧
          d.Made (runAll calls start) t base s.counter) ∧
    (derivations calls start).Pairwise fun d e => ∀ (t t' : Table) (base base' : String)
        (number number' : Nat),
      d.Made (runAll calls start) t base number → e.Made (runAll calls start) t' base' number' →
      t.session = t'.session → number < number' ∧
        (t.name = t'.name ↔
          ∃ lead, base = base' ++ lead ∧ Text.decimal number' = lead ++ Text.decimal number) ∧
        (base = base' → t.name ≠ t'.name) := by
  intro start
  constructor
  · exact fun d hd => made_of_mem_derivations hd
  · refine (pairwise_derivations calls start).imp fun {d e} hrise => ?_
    intro t t' base base' number number' hd he hsession
    have hlt := hrise t t' base base' number number' hd he hsession
    rw [hd.name, he.name]
    refine ⟨hlt, Text.append_decimal_eq_iff hlt, ?_⟩
    rintro rfl heq
    exact absurd (Text.decimal_injective ((String.append_right_inj _).1 heq)) (by omega)

/-- The calls of a session that derive ten tables from the one of two tables after one from the other. -/
def elevenSelections : List Call :=
  [.newSession ⟨"/", []⟩ [], .createTable ⟨0⟩ "t1" "k" "Integer" "k",
    .createTable ⟨0⟩ "t" "k" "Integer" "k", .unary (.project ["k"]) ⟨0⟩ none] ++
    List.replicate 10 (.unary (.project ["k"]) ⟨1⟩ none)

/-- The first result of a table `t1` and the eleventh of its session, of a table `t`, are both named
`t10`. -/
theorem derived_names_meet :
    let start := initial bareSettings ⟨[]⟩
    [⟨⟨0⟩, ⟨2⟩⟩, ⟨⟨1⟩, ⟨12⟩⟩] ⊆ derivations elevenSelections start ∧
      ((runAll elevenSelections start).tables[2]?.map fun t => (t.session, t.name)) =
        some (⟨0⟩, "t10") ∧
      ((runAll elevenSelections start).tables[12]?.map fun t => (t.session, t.name)) =
        some (⟨0⟩, "t10") := by
  decide +kernel

end Store

end KeyedRelations
