import KeyedRelations.Proofs.Number.Exact
import KeyedRelations.Proofs.Relation.Checks
import KeyedRelations.Proofs.Relation.Pairings
import Mathlib.Data.List.Lex

/-!
# The lexicographic order of keys

Keys of one schema without `NaN` are totally ordered by their values, one after the other in the order
of the key: numbers as the exact numbers they are, texts by their code points. The six comparisons
always have an answer for two such keys, and it is the answer of this order.
-/

namespace KeyedRelations

/-! ## Values -/

theorem map_lt_map_iff {α β : Type} [LinearOrder α] [LinearOrder β] {f : α → β} (hf : StrictMono f)
    {l l' : List α} : l.map f < l'.map f ↔ l < l' := by
  induction l generalizing l' with
  | nil =>
    cases l' with
    | nil => exact iff_of_false (lt_irrefl _) (lt_irrefl _)
    | cons b l' => exact iff_of_true (List.nil_lt_cons _ _) (List.nil_lt_cons _ _)
  | cons a l ih =>
    cases l' with
    | nil => exact iff_of_false (List.not_lt_nil _) (List.not_lt_nil _)
    | cons b l' =>
      rw [List.map_cons, List.map_cons, List.cons_lt_cons_iff, List.cons_lt_cons_iff, hf.lt_iff_lt,
        hf.injective.eq_iff, ih]

theorem Extended.rational_lt_iff {p q : Extended} : p.rational < q.rational ↔ p.line < q.line := by
  have h := compares_line p q
  exact (compares_rational h).eq_lt.symm.trans h.eq_lt

theorem Extended.rational_inj {p q : Extended} : p.rational = q.rational ↔ p.line = q.line := by
  have h := compares_line p q
  exact (compares_rational h).eq_eq.symm.trans h.eq_eq

namespace Value

/-- The code points of a text. -/
def codePoints (s : String) : List ℕ := s.toList.map Char.toNat

theorem codePoints_lt_iff {s t : String} : codePoints s < codePoints t ↔ s < t := by
  unfold codePoints
  rw [String.lt_iff_toList_lt]
  exact map_lt_map_iff (f := Char.toNat) fun _ _ hlt => hlt

/-- A number less than another one, or a text before another one by their code points. -/
inductive Less : Value → Value → Prop
  | numbers {v w : Value} {p q : ExtendedRational} (left : v.rational? = some p)
    (right : w.rational? = some q) (lt : p < q) : Less v w
  | texts {s t : String} (lt : codePoints s < codePoints t) : Less (.text s) (.text t)

/-- Values that are one number, or one text. -/
inductive Equal : Value → Value → Prop
  | numbers {v w : Value} {p : ExtendedRational} (left : v.rational? = some p)
    (right : w.rational? = some p) : Equal v w
  | texts (s : String) : Equal (.text s) (.text s)

section Numbers

variable {v w : Value} {p q : ExtendedRational} (hp : v.rational? = some p) (hq : w.rational? = some q)

include hp hq

theorem less_iff_lt : v.Less w ↔ p < q := by
  refine ⟨fun h => ?_, .numbers hp hq⟩
  cases h with
  | numbers left right lt =>
    obtain rfl := Option.some.inj (hp.symm.trans left)
    obtain rfl := Option.some.inj (hq.symm.trans right)
    exact lt
  | texts => cases hp

theorem equal_iff_eq : v.Equal w ↔ p = q := by
  constructor
  · intro h
    cases h with
    | numbers left right =>
      exact Option.some.inj (hp.symm.trans (left.trans (right.symm.trans hq)))
    | texts => cases hp
  · rintro rfl
    exact .numbers hp hq

end Numbers

theorem text_less_iff {s t : String} : (Value.text s).Less (.text t) ↔ codePoints s < codePoints t := by
  refine ⟨fun h => ?_, .texts⟩
  cases h with
  | numbers left => cases left
  | texts lt => exact lt

theorem text_equal_iff {s t : String} : (Value.text s).Equal (.text t) ↔ s = t := by
  constructor
  · intro h
    cases h with
    | numbers left => cases left
    | texts => rfl
  · rintro rfl
    exact .texts s

variable {d : Domain} {v w : Value}

/-- The place of a number on the line is that of the exact number. -/
theorem exists_rational_line (hkind : d.kind = .numeric) (hv : d.Holding v) (hnan : v.isNaN = false) :
    ∃ p : Extended, v.rational? = some p.rational ∧ v.line = Sum.inlₗ p.line := by
  obtain ⟨m, -, hm, -⟩ := compare_numeric .eq hkind hv hv
  obtain ⟨p, hp, hline⟩ := exists_place hkind hv hnan hm
  refine ⟨p, ?_, hline⟩
  rw [rational?, hm, Option.bind_some, Number.rational?_eq_place, hp, Option.map_some]

section Places

variable (hv : d.Holding v) (hw : d.Holding w) (hvnan : v.isNaN = false) (hwnan : w.isNaN = false)

include hv hw hvnan hwnan

theorem line_lt_iff_less : v.line < w.line ↔ v.Less w := by
  cases hkind : d.kind with
  | numeric =>
    obtain ⟨p, hp, hvline⟩ := exists_rational_line hkind hv hvnan
    obtain ⟨q, hq, hwline⟩ := exists_rational_line hkind hw hwnan
    rw [hvline, hwline, less_iff_lt hp hq, Extended.rational_lt_iff]
    exact Sum.Lex.inl_lt_inl_iff
  | text =>
    obtain ⟨s, t, rfl, rfl, -⟩ := compare_text .eq hkind hv hw
    rw [text_less_iff, codePoints_lt_iff]
    exact Sum.Lex.inr_lt_inr_iff

theorem line_eq_iff_equal : v.line = w.line ↔ v.Equal w := by
  cases hkind : d.kind with
  | numeric =>
    obtain ⟨p, hp, hvline⟩ := exists_rational_line hkind hv hvnan
    obtain ⟨q, hq, hwline⟩ := exists_rational_line hkind hw hwnan
    rw [hvline, hwline, equal_iff_eq hp hq, Extended.rational_inj]
    exact Sum.inl_injective.eq_iff
  | text =>
    obtain ⟨s, t, rfl, rfl, -⟩ := compare_text .eq hkind hv hw
    rw [text_equal_iff]
    exact Sum.inr_injective.eq_iff

theorem same_iff_line_eq : v.same w = true ↔ v.line = w.line := by
  obtain ⟨o, -, hsame, hcompares⟩ := compares_line .eq hv hw hvnan hwnan
  rw [hsame, beq_iff_eq]
  exact hcompares.eq_eq

end Places

end Value

/-! ## Keys -/

namespace Key

/-- A key comes before another one if, where the first values differ, its value is less. -/
inductive Precedes : Key → Key → Prop
  | here {v w : Value} (less : v.Less w) (vs ws : Key) : Precedes (v :: vs) (w :: ws)
  | later {v w : Value} (equal : v.Equal w) {vs ws : Key} (rest : Precedes vs ws) :
    Precedes (v :: vs) (w :: ws)

theorem precedes_cons_iff {v w : Value} {vs ws : Key} :
    Precedes (v :: vs) (w :: ws) ↔ v.Less w ∨ v.Equal w ∧ Precedes vs ws := by
  constructor
  · intro h
    cases h with
    | here less => exact .inl less
    | later equal rest => exact .inr ⟨equal, rest⟩
  · rintro (less | ⟨equal, rest⟩)
    · exact .here less vs ws
    · exact .later equal rest

/-- Whether an operator answers that it holds of two keys. -/
def Holds (op : Operator) (a b : Key) : Prop := op.test (.key a) (.key b) = .ok true

variable {domains : List Domain} {a b : Key}

section Places

variable (ha : Typed domains a) (hb : Typed domains b) (hanan : a.hasNaN = false)
  (hbnan : b.hasNaN = false)

include ha hb hanan hbnan

/-- The dictionary of the places has the keys in lexicographic order. -/
theorem line_lt_iff_precedes : a.line < b.line ↔ Precedes a b := by
  induction ha generalizing b with
  | nil =>
    cases hb
    exact iff_of_false (lt_irrefl _) nofun
  | @cons d v domains vs hv _ ih =>
    cases hb with
    | @cons _ w _ ws hw hws =>
      simp only [hasNaN, List.any_cons, Bool.or_eq_false_iff] at hanan hbnan
      rw [precedes_cons_iff, ← Value.line_lt_iff_less hv hw hanan.1 hbnan.1,
        ← Value.line_eq_iff_equal hv hw hanan.1 hbnan.1, ← ih hws hanan.2 hbnan.2]
      exact List.cons_lt_cons_iff

/-- Keys have one place if their values do, position by position. -/
theorem line_eq_iff_forall₂ {r : Value → Value → Prop}
    (hr : ∀ {d v w}, Domain.Holding d v → Domain.Holding d w → v.isNaN = false → w.isNaN = false →
      (v.line = w.line ↔ r v w)) : a.line = b.line ↔ List.Forall₂ r a b := by
  induction ha generalizing b with
  | nil =>
    cases hb
    exact iff_of_true rfl .nil
  | @cons d v domains vs hv _ ih =>
    cases hb with
    | @cons _ w _ ws hw hws =>
      simp only [hasNaN, List.any_cons, Bool.or_eq_false_iff] at hanan hbnan
      rw [List.forall₂_cons, ← hr hv hw hanan.1 hbnan.1, ← ih hws hanan.2 hbnan.2]
      exact List.cons_eq_cons

/-- All operators answer from the places. -/
theorem test_eq_relates (op : Operator) :
    op.test (.key a) (.key b) = .ok (decide (op.Relates a.line b.line)) := by
  obtain ⟨o, hcompare, hsame, hcompares⟩ := compares_line op ha.begins hb.begins hanan hbnan
  have hrelates : op.holds o = decide (op.Relates a.line b.line) := by
    rw [Bool.eq_iff_iff, decide_eq_true_iff]
    exact op.holds_iff_relates hcompares
  have hkeys : (Value.key a).compare op (.key b) = .ok (some o) := hcompare
  rw [← hrelates]
  cases op with
  | eq => exact congrArg Except.ok hsame
  | ne => exact congrArg (fun same => Except.ok !same) hsame
  | lt | le | gt | ge =>
    simp only [Operator.test, hkeys, bind, Except.bind]
    rfl

theorem holds_iff_relates (op : Operator) : Holds op a b ↔ op.Relates a.line b.line := by
  rw [Holds, test_eq_relates ha hb hanan hbnan, Except.ok.injEq, decide_eq_true_iff]

end Places

/-- Keys whose comparisons are those of their lexicographic order. -/
structure LexicallyOrdered (S : Set Key) : Prop where
  /-- No comparison fails. -/
  answered : ∀ a ∈ S, ∀ b ∈ S, ∀ op : Operator, ∃ answer, op.test (.key a) (.key b) = .ok answer
  /-- Exactly one of `<`, `==` and `>` holds. -/
  trichotomy : ∀ a ∈ S, ∀ b ∈ S,
    Holds .lt a b ∧ ¬Holds .eq a b ∧ ¬Holds .gt a b ∨
    ¬Holds .lt a b ∧ Holds .eq a b ∧ ¬Holds .gt a b ∨
    ¬Holds .lt a b ∧ ¬Holds .eq a b ∧ Holds .gt a b
  le_iff : ∀ a ∈ S, ∀ b ∈ S, (Holds .le a b ↔ Holds .lt a b ∨ Holds .eq a b)
  ge_iff : ∀ a ∈ S, ∀ b ∈ S, (Holds .ge a b ↔ Holds .gt a b ∨ Holds .eq a b)
  ne_iff : ∀ a ∈ S, ∀ b ∈ S, (Holds .ne a b ↔ ¬Holds .eq a b)
  trans : ∀ a ∈ S, ∀ b ∈ S, ∀ c ∈ S, Holds .lt a b → Holds .lt b c → Holds .lt a c
  lt_iff : ∀ a ∈ S, ∀ b ∈ S, (Holds .lt a b ↔ Precedes a b)
  gt_iff : ∀ a ∈ S, ∀ b ∈ S, (Holds .gt a b ↔ Precedes b a)
  eq_iff : ∀ a ∈ S, ∀ b ∈ S, (Holds .eq a b ↔ List.Forall₂ Value.Equal a b)
  /-- Keys are equal if their values are equal as values, position by position. -/
  eq_iff_same : ∀ a ∈ S, ∀ b ∈ S,
    (Holds .eq a b ↔ List.Forall₂ (fun v w => v.same w = true) a b)

theorem lexicallyOrdered_of_typed {S : Set Key}
    (hS : ∀ key ∈ S, Typed domains key ∧ key.hasNaN = false) : LexicallyOrdered S := by
  have hrelates : ∀ a ∈ S, ∀ b ∈ S, ∀ op : Operator, Holds op a b ↔ op.Relates a.line b.line :=
    fun a ha b hb => holds_iff_relates (hS a ha).1 (hS b hb).1 (hS a ha).2 (hS b hb).2
  constructor
  case answered =>
    intro a ha b hb op
    exact ⟨_, test_eq_relates (hS a ha).1 (hS b hb).1 (hS a ha).2 (hS b hb).2 op⟩
  case trichotomy =>
    intro a ha b hb
    rw [hrelates a ha b hb, hrelates a ha b hb, hrelates a ha b hb]
    rcases lt_trichotomy a.line b.line with hlt | heq | hgt
    · exact .inl ⟨hlt, hlt.ne, hlt.asymm⟩
    · exact .inr (.inl ⟨heq.not_lt, heq, heq.symm.not_lt⟩)
    · exact .inr (.inr ⟨hgt.asymm, hgt.ne', hgt⟩)
  case le_iff =>
    intro a ha b hb
    rw [hrelates a ha b hb, hrelates a ha b hb, hrelates a ha b hb]
    exact le_iff_lt_or_eq
  case ge_iff =>
    intro a ha b hb
    rw [hrelates a ha b hb, hrelates a ha b hb, hrelates a ha b hb]
    exact le_iff_lt_or_eq.trans (or_congr_right eq_comm)
  case ne_iff =>
    intro a ha b hb
    rw [hrelates a ha b hb, hrelates a ha b hb]
    exact Iff.rfl
  case trans =>
    intro a ha b hb c hc
    rw [hrelates a ha b hb, hrelates b hb c hc, hrelates a ha c hc]
    exact lt_trans
  case lt_iff =>
    intro a ha b hb
    exact (hrelates a ha b hb .lt).trans
      (line_lt_iff_precedes (hS a ha).1 (hS b hb).1 (hS a ha).2 (hS b hb).2)
  case gt_iff =>
    intro a ha b hb
    exact (hrelates a ha b hb .gt).trans
      (line_lt_iff_precedes (hS b hb).1 (hS a ha).1 (hS b hb).2 (hS a ha).2)
  case eq_iff =>
    intro a ha b hb
    exact (hrelates a ha b hb .eq).trans
      (line_eq_iff_forall₂ (hS a ha).1 (hS b hb).1 (hS a ha).2 (hS b hb).2 Value.line_eq_iff_equal)
  case eq_iff_same =>
    intro a ha b hb
    refine (hrelates a ha b hb .eq).trans
      (line_eq_iff_forall₂ (hS a ha).1 (hS b hb).1 (hS a ha).2 (hS b hb).2 ?_)
    intro d v w hv hw hvnan hwnan
    exact (Value.same_iff_line_eq hv hw hvnan hwnan).symm

end Key

/-! ## The keys of a schema -/

namespace Schema

variable {schema : Schema}

/-- The keys that a schema takes from the rows it accepts, and those it reads from values. -/
inductive MakesKey (schema : Schema) : Key → Prop
  | ofRow {row : Row} {t : Tuple} {key : Key} (accepted : schema.validate row = .ok t)
    (taken : schema.keyOfRow row = .ok key) : schema.MakesKey key
  | ofValue {v : Value} {key : Key} (read : schema.coerceKey v = .ok key) : schema.MakesKey key

/-- A row that is accepted has a key, also if it is a text. -/
theorem keyOfRow_of_validate {row : Row} {t : Tuple} (h : schema.validate row = .ok t) :
    schema.keyOfRow row = .ok (schema.keyOf t) := by
  obtain ⟨rfl, hfit⟩ := validate_eq_ok.1 h
  have hlength : row.values.length = schema.arity := hfit.length_eq.symm.trans length_domains
  exact mapM_eq_ok fun i hi => Row.value_eq_cell (hlength ▸ keyPositions_lt hi)

theorem MakesKey.fitting {key : Key} (h : schema.MakesKey key) : Fitting schema.keyDomains key := by
  cases h with
  | ofRow accepted taken =>
    obtain rfl := Except.ok.inj ((keyOfRow_of_validate accepted).symm.trans taken)
    exact fitting_keyOf (validate_eq_ok.1 accepted).2
  | ofValue read => exact fitting_of_coerceKey read

/-- The keys of a schema without `NaN` are totally ordered, by the first values that differ. -/
theorem keys_totally_ordered (schema : Schema) :
    Key.LexicallyOrdered {key | schema.MakesKey key ∧ key.hasNaN = false} :=
  Key.lexicallyOrdered_of_typed fun _ hkey => ⟨hkey.1.fitting.typed, hkey.2⟩

/-- Names in front of measurements. -/
def measurements : Schema where
  columns := [⟨"value", .float64⟩, ⟨"count", .integer64⟩, ⟨"name", .string⟩]
  key := ["name", "value"]
  names_nodup := by decide
  key_ne_nil := by decide
  key_subset := by decide

/-- Both zeros make one key, in a row and in a list. An accented name comes behind the names that begin
with a letter from `a` to `z`, whatever the values are. -/
theorem keys_totally_ordered_measurements :
    let zero : Key := [.text "é", .float (.ofBits 0)]
    let minusZero : Key := [.text "é", .float (.ofBits 0x8000000000000000)]
    let infinite : Key := [.text "z", .float (.infinity false)]
    (measurements.MakesKey zero ∧ zero.hasNaN = false) ∧
      (measurements.MakesKey minusZero ∧ minusZero.hasNaN = false) ∧
      (measurements.MakesKey infinite ∧ infinite.hasNaN = false) ∧
      Key.Holds .eq zero minusZero ∧ List.Forall₂ Value.Equal zero minusZero ∧
      Key.Holds .lt infinite zero ∧ Key.Precedes infinite zero ∧ ¬Key.Holds .gt infinite zero := by
  intro zero minusZero infinite
  have hrow : measurements.validate
      (.tuple [.float (.ofBits 0), .int 9223372036854775807, .text "é"]) =
      .ok [.float (.ofBits 0), .int 9223372036854775807, .text "é"] := rfl
  have hzero : measurements.MakesKey zero ∧ zero.hasNaN = false :=
    ⟨.ofRow hrow rfl, rfl⟩
  have hminusZero : measurements.MakesKey minusZero ∧ minusZero.hasNaN = false :=
    ⟨.ofValue (v := .list [.text "é", .float (.ofBits 0x8000000000000000)]) rfl, rfl⟩
  have hinfinite : measurements.MakesKey infinite ∧ infinite.hasNaN = false :=
    ⟨.ofValue (v := .key [.text "z", .float (.infinity false)]) rfl, rfl⟩
  have hordered := keys_totally_ordered measurements
  have heq : Key.Holds .eq zero minusZero := rfl
  have hlt : Key.Holds .lt infinite zero := rfl
  have hgt : ¬Key.Holds .gt infinite zero := by
    rcases hordered.trichotomy infinite hinfinite zero hzero with h | h | h
    · exact h.2.2
    · exact absurd hlt h.1
    · exact absurd hlt h.1
  exact ⟨hzero, hminusZero, hinfinite, heq, (hordered.eq_iff zero hzero minusZero hminusZero).1 heq,
    hlt, (hordered.lt_iff infinite hinfinite zero hzero).1 hlt, hgt⟩

end Schema

end KeyedRelations
