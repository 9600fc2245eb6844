import KeyedRelations.Domain
import KeyedRelations.Proofs.Index.Ordered
import KeyedRelations.Key
import Mathlib

/-!
# The line of keys

The values of one domain can all be compared. Those that are not `NaN` have places on one line, the
numbers before the texts, and the keys that are made of them stand in the order of a dictionary.
Comparisons of such keys answer what the places say.
-/

namespace KeyedRelations

theorem compares_compareOfLessAndEq {α : Type} [LinearOrder α] (a b : α) :
    (compareOfLessAndEq a b).Compares a b := by
  unfold compareOfLessAndEq
  split_ifs with hlt heq
  · exact hlt
  · exact heq
  · exact lt_of_le_of_ne (not_lt.1 hlt) (Ne.symm heq)

theorem twoTo_pos (n : Nat) : 0 < twoTo n := by
  unfold twoTo
  exact Nat.two_pow_pos n

/-! ## Numbers -/

namespace Extended

def line : Extended → WithBot (WithTop ℤ)
  | .negInf => ⊥
  | .finite units => ((units : WithTop ℤ) : WithBot (WithTop ℤ))
  | .posInf => ((⊤ : WithTop ℤ) : WithBot (WithTop ℤ))

theorem line_finite_strictMono : StrictMono fun units => (finite units).line :=
  WithBot.coe_strictMono.comp WithTop.coe_strictMono

theorem compares_line (a b : Extended) : (a.compare b).Compares a.line b.line := by
  cases a with
  | negInf =>
    cases b with
    | negInf => exact rfl
    | finite n => exact WithBot.bot_lt_coe _
    | posInf => exact WithBot.bot_lt_coe _
  | posInf =>
    cases b with
    | negInf => exact WithBot.bot_lt_coe _
    | finite n => exact WithBot.coe_lt_coe.2 (WithTop.coe_lt_top n)
    | posInf => exact rfl
  | finite m =>
    cases b with
    | negInf => exact WithBot.bot_lt_coe _
    | finite n => exact line_finite_strictMono.compares.2 (compares_compareOfLessAndEq m n)
    | posInf => exact WithBot.coe_lt_coe.2 (WithTop.coe_lt_top m)

theorem compares_ofInt (m n : Int) :
    (Ord.compare m n).Compares (ofInt m).line (ofInt n).line := by
  have hunit : (0 : Int) < twoTo 1074 := Int.natCast_pos.2 (twoTo_pos 1074)
  have hmono := line_finite_strictMono.comp
    (fun a b hlt => mul_lt_mul_of_pos_right hlt hunit : StrictMono fun n : ℤ => n * twoTo 1074)
  exact hmono.compares.2 (compares_compareOfLessAndEq m n)

end Extended

theorem Double.exists_place {x : Double} (hx : x.isNaN = false) : ∃ p, x.place? = some p := by
  unfold place?
  by_cases hfinite : x.isFinite = true
  · exact ⟨_, if_pos hfinite⟩
  · simp [hfinite, hx]

namespace Value

theorem Number.compares_line {a b : Number} {p q : Extended} (ha : a.place? = some p)
    (hb : b.place? = some q) : ∃ o, a.compare b = some o ∧ o.Compares p.line q.line := by
  cases a with
  | whole m =>
    cases b with
    | whole n =>
      cases ha
      cases hb
      exact ⟨_, rfl, Extended.compares_ofInt m n⟩
    | double y => exact ⟨p.compare q, by simp [compare, ha, hb], p.compares_line q⟩
  | double x => exact ⟨p.compare q, by simp [compare, ha, hb], p.compares_line q⟩

def isNaN : Value → Bool
  | .float x | .nan x _ => x.isNaN
  | _ => false

/-- The place of a number or of a text. It says nothing about other values. -/
def line : Value → WithBot (WithTop ℤ) ⊕ₗ String
  | .int n => Sum.inlₗ (Extended.ofInt n).line
  | .float x => Sum.inlₗ (x.place?.getD .negInf).line
  | .text s => Sum.inrₗ s
  | _ => Sum.inlₗ ⊥

end Value

/-- The values that a domain accepts: whole numbers, doubles or texts. -/
inductive Domain.Holding (d : Domain) : Value → Prop
  | whole {n} (kind : d.kind = .numeric) (low : -2 ^ 63 ≤ n) (high : n < 2 ^ 63) : d.Holding (.int n)
  | double {x} (kind : d.kind = .numeric) : d.Holding (.float x)
  | text {s} (kind : d.kind = .text) : d.Holding (.text s)

theorem Domain.bits?_le {d : Domain} {bits : Nat} (h : d.bits? = some bits) :
    d.kind = .numeric ∧ twoTo (bits - 1) ≤ 2 ^ 63 := by
  cases d <;> cases h <;> exact ⟨rfl, by decide⟩

theorem Domain.holding_of_accepts {d : Domain} {v : Value} (h : d.accepts v = true) :
    d.Holding v := by
  unfold accepts at h
  split at h
  · exact .text rfl
  · exact .text rfl
  · exact .double rfl
  · exact .double rfl
  · split at h
    · rename_i d n bits hbits
      obtain ⟨hkind, hle⟩ := bits?_le hbits
      simp only [Bool.and_eq_true, decide_eq_true_eq] at h
      exact .whole hkind (by omega) (by omega)
    · exact absurd h (by simp)
  · exact absurd h (by simp)

namespace Value

variable {d : Domain} {v w : Value} (op : Operator)

/-- Numbers are compared exactly, whatever their kinds are. -/
theorem compare_numeric (hkind : d.kind = .numeric) (hv : d.Holding v) (hw : d.Holding w) :
    ∃ m n, v.number? = some m ∧ w.number? = some n ∧ v.compare op w = .ok (m.compare n) ∧
      v.same w = (m.compare n == some .eq) := by
  cases hv with
  | text hother => exact absurd (hkind.symm.trans hother) (by decide)
  | whole =>
    cases hw with
    | text hother => exact absurd (hkind.symm.trans hother) (by decide)
    | whole => exact ⟨_, _, rfl, rfl, rfl, rfl⟩
    | double => exact ⟨_, _, rfl, rfl, rfl, rfl⟩
  | double =>
    cases hw with
    | text hother => exact absurd (hkind.symm.trans hother) (by decide)
    | whole => exact ⟨_, _, rfl, rfl, rfl, rfl⟩
    | double => exact ⟨_, _, rfl, rfl, rfl, rfl⟩

theorem compare_text (hkind : d.kind = .text) (hv : d.Holding v) (hw : d.Holding w) :
    ∃ s t, v = .text s ∧ w = .text t ∧ v.compare op w = .ok (some (Ord.compare s t)) ∧
      v.same w = (s == t) := by
  cases hv with
  | whole hother => exact absurd (hkind.symm.trans hother) (by decide)
  | double hother => exact absurd (hkind.symm.trans hother) (by decide)
  | text =>
    cases hw with
    | whole hother => exact absurd (hkind.symm.trans hother) (by decide)
    | double hother => exact absurd (hkind.symm.trans hother) (by decide)
    | text => exact ⟨_, _, rfl, rfl, rfl, rfl⟩

/-- The values of one domain can be compared, `NaN` included. -/
theorem exists_compare (hv : d.Holding v) (hw : d.Holding w) : ∃ o?, v.compare op w = .ok o? := by
  cases hkind : d.kind with
  | numeric =>
    obtain ⟨m, n, -, -, hcompare, -⟩ := compare_numeric op hkind hv hw
    exact ⟨_, hcompare⟩
  | text =>
    obtain ⟨s, t, -, -, hcompare, -⟩ := compare_text op hkind hv hw
    exact ⟨_, hcompare⟩

theorem exists_place (hkind : d.kind = .numeric) (hv : d.Holding v) (hnan : v.isNaN = false)
    {m : Number} (hm : v.number? = some m) :
    ∃ p, m.place? = some p ∧ v.line = Sum.inlₗ p.line := by
  cases hv with
  | text hother => exact absurd (hkind.symm.trans hother) (by decide)
  | whole =>
    cases hm
    exact ⟨_, rfl, rfl⟩
  | double =>
    cases hm
    obtain ⟨p, hp⟩ := Double.exists_place hnan
    exact ⟨p, hp, by simp [line, hp]⟩

/-- The values of one domain are ordered by their places. -/
theorem compares_line (hv : d.Holding v) (hw : d.Holding w) (hvnan : v.isNaN = false)
    (hwnan : w.isNaN = false) :
    ∃ o, v.compare op w = .ok (some o) ∧ v.same w = (o == .eq) ∧ o.Compares v.line w.line := by
  cases hkind : d.kind with
  | numeric =>
    obtain ⟨m, n, hm, hn, hcompare, hsame⟩ := compare_numeric op hkind hv hw
    obtain ⟨p, hp, hvline⟩ := exists_place hkind hv hvnan hm
    obtain ⟨q, hq, hwline⟩ := exists_place hkind hw hwnan hn
    obtain ⟨o, ho, hcompares⟩ := Number.compares_line hp hq
    rw [hvline, hwline]
    refine ⟨o, by rw [hcompare, ho], by rw [hsame, ho]; rfl, ?_⟩
    exact Sum.Lex.inl_strictMono.compares.2 hcompares
  | text =>
    obtain ⟨s, t, rfl, rfl, hcompare, hsame⟩ := compare_text op hkind hv hw
    have hcompares := compares_compareOfLessAndEq s t
    refine ⟨_, hcompare, ?_, Sum.Lex.inr_strictMono.compares.2 hcompares⟩
    rw [hsame, Bool.eq_iff_iff, beq_iff_eq, beq_iff_eq]
    exact hcompares.eq_eq.symm

end Value

/-! ## Keys -/

namespace Key

/-- The keys with a value of each domain. -/
def Typed (domains : List Domain) (key : Key) : Prop := List.Forall₂ Domain.Holding domains key

/-- The keys with a value of each of the first domains, as many as they may be. -/
inductive Begins : List Domain → Key → Prop
  | nil {domains} : Begins domains []
  | cons {d v domains key} (head : d.Holding v) (tail : Begins domains key) :
    Begins (d :: domains) (v :: key)

theorem Typed.begins {domains : List Domain} {key : Key} (h : Typed domains key) :
    Begins domains key := by
  induction h with
  | nil => exact .nil
  | cons hv _ ih => exact .cons hv ih

def hasNaN (key : Key) : Bool := key.any Value.isNaN

/-- The places of the values, a word in the dictionary. -/
def line (key : Key) : List (WithBot (WithTop ℤ) ⊕ₗ String) := key.map Value.line

variable {domains : List Domain} {a b : Key} (op : Operator)

theorem compareAll_cons {d : Domain} {v w : Value} (hv : d.Holding v) (vs ws : List Value) :
    Value.compareAll op (v :: vs) (w :: ws) =
        (if v.same w then Value.compareAll op vs ws else v.compare op w) ∧
      Value.sameAll (v :: vs) (w :: ws) = (v.same w && Value.sameAll vs ws) := by
  have hself : Value.isSelf v w = false := by cases hv <;> rfl
  simp [Value.compareAll, Value.sameAll, hself]

theorem exists_compareAll (ha : Typed domains a) (hb : Typed domains b) :
    ∃ o?, Value.compareAll op a b = .ok o? := by
  induction ha generalizing b with
  | nil =>
    cases hb
    exact ⟨_, rfl⟩
  | cons hv _ ih =>
    cases hb with
    | @cons _ w _ ws hw hws =>
      rw [(compareAll_cons op hv _ ws).1]
      split_ifs
      · exact ih hws
      · exact Value.exists_compare op hv hw

/-- The first values that differ decide, and a key comes before the longer ones that begin with it. -/
theorem compares_line (ha : Begins domains a) (hb : Begins domains b) (hanan : a.hasNaN = false)
    (hbnan : b.hasNaN = false) :
    ∃ o, Value.compareAll op a b = .ok (some o) ∧ Value.sameAll a b = (o == .eq) ∧
      o.Compares a.line b.line := by
  induction ha generalizing b with
  | nil =>
    cases hb with
    | nil => exact ⟨.eq, rfl, rfl, rfl⟩
    | cons _ _ => exact ⟨.lt, rfl, rfl, List.nil_lt_cons _ _⟩
  | @cons d v domains vs hv _ ih =>
    cases hb with
    | nil => exact ⟨.gt, rfl, rfl, List.nil_lt_cons _ _⟩
    | @cons _ w _ ws hw hws =>
      simp only [hasNaN, List.any_cons, Bool.or_eq_false_iff] at hanan hbnan
      obtain ⟨o, hcompare, hsame, horder⟩ :=
        Value.compares_line op hv hw hanan.1 hbnan.1
      obtain ⟨hstep, hsameStep⟩ := compareAll_cons op (w := w) hv vs ws
      rw [hstep, hsameStep, hsame]
      cases o with
      | eq =>
        obtain ⟨o, hrest, hsameRest, horderRest⟩ := ih hws hanan.2 hbnan.2
        refine ⟨o, by simpa using hrest, by simpa using hsameRest, ?_⟩
        have heq : v.line = w.line := horder
        cases o with
        | lt => exact List.cons_lt_cons_iff.2 (.inr ⟨heq, horderRest⟩)
        | eq => exact congrArg₂ List.cons heq horderRest
        | gt => exact List.cons_lt_cons_iff.2 (.inr ⟨heq.symm, horderRest⟩)
      | lt =>
        exact ⟨.lt, by simpa using hcompare, by simp, List.cons_lt_cons_iff.2 (.inl horder)⟩
      | gt =>
        exact ⟨.gt, by simpa using hcompare, by simp, List.cons_lt_cons_iff.2 (.inl horder)⟩

theorem less_of_compareAll {o? : Option Ordering} (h : Value.compareAll .lt a b = .ok o?) :
    order.less a b = .ok (o? == some .lt) := by
  have hcompare : (Value.key a).compare .lt (.key b) = .ok o? := h
  simp only [order, Operator.test, hcompare, bind, Except.bind]
  cases o? <;> rfl

theorem greater_of_compareAll {o? : Option Ordering} (h : Value.compareAll .gt a b = .ok o?) :
    order.greater a b = .ok (o? == some .gt) := by
  have hcompare : (Value.key a).compare .gt (.key b) = .ok o? := h
  simp only [order, Operator.test, hcompare, bind, Except.bind]
  cases o? <;> rfl

/-- Keys of the same domains can be ordered, `NaN` included. -/
theorem exists_order (ha : Typed domains a) (hb : Typed domains b) :
    (∃ answer, order.less a b = .ok answer) ∧ ∃ answer, order.greater a b = .ok answer := by
  obtain ⟨o?, hless⟩ := exists_compareAll .lt ha hb
  obtain ⟨p?, hgreater⟩ := exists_compareAll .gt ha hb
  exact ⟨⟨_, less_of_compareAll hless⟩, ⟨_, greater_of_compareAll hgreater⟩⟩

/-- Keys whose values are of the same domains are compared by their places, also keys of which one is
longer than the other. -/
theorem along_line_begins (domains : List Domain) :
    order.Along line {key | Begins domains key ∧ key.hasNaN = false} where
  less_eq := by
    rintro a ⟨ha, hanan⟩ b ⟨hb, hbnan⟩
    obtain ⟨o, hcompare, -, horder⟩ := compares_line .lt ha hb hanan hbnan
    rw [less_of_compareAll hcompare, Except.ok.injEq, Bool.eq_iff_iff]
    simpa using horder.eq_lt
  greater_eq := by
    rintro a ⟨ha, hanan⟩ b ⟨hb, hbnan⟩
    obtain ⟨o, hcompare, -, horder⟩ := compares_line .gt ha hb hanan hbnan
    rw [greater_of_compareAll hcompare, Except.ok.injEq, Bool.eq_iff_iff]
    simpa using horder.eq_gt
  same_eq := by
    rintro a ⟨ha, hanan⟩ b ⟨hb, hbnan⟩
    obtain ⟨o, -, hsame, horder⟩ := compares_line .eq ha hb hanan hbnan
    change Value.sameAll a b = _
    rw [hsame, Bool.eq_iff_iff]
    simpa using horder.eq_eq

theorem along_line (domains : List Domain) :
    order.Along line {key | Typed domains key ∧ key.hasNaN = false} :=
  (along_line_begins domains).mono fun _ hkey => hkey.imp_left Typed.begins

/-- Among keys of the same domains without `NaN`, comparisons are those of a total order. -/
theorem totalOn_begins (domains : List Domain) :
    order.TotalOn {key | Begins domains key ∧ key.hasNaN = false} :=
  ⟨_, inferInstance, line, along_line_begins domains⟩

theorem totalOn_typed (domains : List Domain) :
    order.TotalOn {key | Typed domains key ∧ key.hasNaN = false} :=
  ⟨_, inferInstance, line, along_line domains⟩

end Key

end KeyedRelations
