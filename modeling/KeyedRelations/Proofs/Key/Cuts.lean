import KeyedRelations.Proofs.Index.Searching
import KeyedRelations.Proofs.Key.Line

/-!
# Keys from elsewhere

A key of any values can be asked for, of which some may be of another kind than the column, or not be
numbers. It need not have a place on the line of keys, and a comparison with it may fail. Still the
keys below it stand in front of the others, and the first of those that are not below it is the only
one that can be the same.
-/

namespace KeyedRelations

namespace Value

/-- Whether a value is below another one, if they can be compared. -/
def isBelow (v w : Value) : Except Incomparable Bool := (v.compare .lt w).map (· == some .lt)

/-- A number is compared with any other number, and with nothing else. -/
theorem compare_of_numeric {d : Domain} {v : Value} (hkind : d.kind = .numeric) (hv : d.Holding v)
    (op : Operator) : ∃ m, v.number? = some m ∧ ∀ w : Value,
      v.compare op w =
        (match w.number? with
          | some n => .ok (m.compare n)
          | none => .error ⟨op, v.kindName, w.kindName⟩) ∧
      v.same w = w.number?.any fun n => m.compare n == some .eq := by
  cases hv with
  | text hother => exact absurd (hkind.symm.trans hother) (by decide)
  | whole =>
    refine ⟨_, rfl, fun w => ?_⟩
    cases w <;> exact ⟨rfl, rfl⟩
  | double =>
    refine ⟨_, rfl, fun w => ?_⟩
    cases w <;> exact ⟨rfl, rfl⟩

/-- How the values of a domain stand to any value: it has a place among them, or none of them is the
same and either none is below it or it can be compared with none. -/
inductive Sides (d : Domain) (w : Value) : Prop
  | place (p : WithBot (WithTop ℤ) ⊕ₗ String)
      (sides : ∀ v, d.Holding v → v.isNaN = false →
        ∃ o : Ordering, v.same w = (o == .eq) ∧ v.isBelow w = .ok (o == .lt) ∧ o.Compares v.line p)
  | above (sides : ∀ v, d.Holding v → v.same w = false ∧ v.isBelow w = .ok false)
  | apart (sides : ∀ v, d.Holding v → v.same w = false ∧ ∃ cause, v.isBelow w = .error cause)

theorem isBelow_of_compare {v w : Value} {o? : Option Ordering} (h : v.compare .lt w = .ok o?) :
    v.isBelow w = .ok (o? == some .lt) :=
  congrArg (Except.map _) h

theorem Number.compare_eq_none {n : Number} (hn : n.place? = none) (m : Number) :
    m.compare n = none := by
  cases n with
  | whole => cases hn
  | double y => cases m <;> simp [compare, hn]

theorem sides_numeric {d : Domain} (hkind : d.kind = .numeric) (w : Value) : Sides d w := by
  cases hw : w.number? with
  | none =>
    refine .apart fun v hv => ?_
    obtain ⟨m, -, hcompare⟩ := compare_of_numeric hkind hv .lt
    obtain ⟨hcompare, hsame⟩ := hcompare w
    rw [hw] at hcompare hsame
    exact ⟨hsame, _, congrArg (Except.map _) hcompare⟩
  | some n =>
    cases hn : n.place? with
    | none =>
      refine .above fun v hv => ?_
      obtain ⟨m, -, hcompare⟩ := compare_of_numeric hkind hv .lt
      obtain ⟨hcompare, hsame⟩ := hcompare w
      have hnone := Number.compare_eq_none hn m
      rw [hw] at hcompare hsame
      exact ⟨by simpa [hnone] using hsame, by simpa [hnone] using isBelow_of_compare hcompare⟩
    | some q =>
      refine .place (Sum.inlₗ q.line) fun v hv hnan => ?_
      obtain ⟨m, hm, hcompare⟩ := compare_of_numeric hkind hv .lt
      obtain ⟨hcompare, hsame⟩ := hcompare w
      obtain ⟨p, hp, hline⟩ := exists_place hkind hv hnan hm
      obtain ⟨o, ho, hcompares⟩ := Number.compares_line hp hn
      rw [hw] at hcompare hsame
      refine ⟨o, by simpa [ho] using hsame, by simpa [ho] using isBelow_of_compare hcompare, ?_⟩
      rw [hline]
      exact Sum.Lex.inl_strictMono.compares.2 hcompares

theorem sides_text {d : Domain} (hkind : d.kind = .text) (w : Value) : Sides d w := by
  cases w with
  | text t =>
    refine .place (Sum.inrₗ t) fun v hv hnan => ?_
    obtain ⟨o, hcompare, hsame, hcompares⟩ :=
      compares_line .lt hv (.text hkind : d.Holding (.text t)) hnan rfl
    exact ⟨o, hsame, isBelow_of_compare hcompare, hcompares⟩
  | _ =>
    refine .apart fun v hv => ?_
    cases hv with
    | text => exact ⟨rfl, _, rfl⟩
    | _ hother => exact absurd (hkind.symm.trans hother) (by decide)

theorem sides (d : Domain) (w : Value) : Sides d w := by
  cases hkind : d.kind with
  | numeric => exact sides_numeric hkind w
  | text => exact sides_text hkind w

end Value

namespace Key

variable {domains : List Domain} {a b : Key}

theorem less_eq_map (a b : Key) :
    order.less a b = (Value.compareAll .lt a b).map (· == some .lt) := by
  cases h : Value.compareAll .lt a b with
  | ok o? => exact less_of_compareAll h
  | error cause =>
    have hcompare : (Value.key a).compare .lt (.key b) = .error cause := h
    simp only [order, Operator.test, hcompare, bind, Except.bind]
    rfl

theorem less_cons {d : Domain} {v : Value} (hv : d.Holding v) (w : Value) (vs ws : List Value) :
    order.less (v :: vs) (w :: ws) = if v.same w then order.less vs ws else v.isBelow w := by
  rw [less_eq_map, (compareAll_cons .lt hv vs ws).1]
  split_ifs
  · exact (less_eq_map vs ws).symm
  · rfl

theorem same_cons {d : Domain} {v : Value} (hv : d.Holding v) (w : Value) (vs ws : List Value) :
    order.same (v :: vs) (w :: ws) = (v.same w && order.same vs ws) :=
  (compareAll_cons .lt hv vs ws).2

theorem line_le_cons {v v' : Value} {vs vs' : List Value}
    (h : line (v :: vs) ≤ line (v' :: vs')) :
    v.line < v'.line ∨ v.line = v'.line ∧ line vs ≤ line vs' := by
  rcases h.lt_or_eq with hlt | heq
  · exact (List.cons_lt_cons_iff.1 hlt).imp_right (And.imp_right le_of_lt)
  · obtain ⟨hhead, htail⟩ := List.cons.inj heq
    exact .inr ⟨hhead, htail.le⟩

/-- Of two keys in the order of their places, the first is below a third key if the second is, and the
second is not below it if the first is not. -/
theorem less_mono (ha : Typed domains a) (hb : Typed domains b) (hanan : a.hasNaN = false)
    (hbnan : b.hasNaN = false) (hle : a.line ≤ b.line) (key : Key) :
    (order.less b key = .ok true → order.less a key = .ok true) ∧
      (order.less a key = .ok false → order.less b key = .ok false) := by
  induction ha generalizing b key with
  | nil =>
    cases hb
    exact ⟨id, id⟩
  | @cons d v domains vs hv _ ih =>
    cases hb with
    | @cons _ v' _ vs' hv' hvs' =>
      simp only [hasNaN, List.any_cons, Bool.or_eq_false_iff] at hanan hbnan
      cases key with
      | nil => exact ⟨id, id⟩
      | cons w ws =>
        rw [less_cons hv, less_cons hv']
        cases Value.sides d w with
        | place p hsides =>
          obtain ⟨o, hsame, hbelow, hcompares⟩ := hsides v hv hanan.1
          obtain ⟨o', hsame', hbelow', hcompares'⟩ := hsides v' hv' hbnan.1
          rw [hsame, hbelow, hsame', hbelow']
          -- The first values decide, unless both have the same place.
          rcases line_le_cons hle with hhead | ⟨hhead, htail⟩
          · cases o with
            | lt => simp
            | eq =>
              obtain rfl : o' = .gt := hcompares'.inj (lt_of_eq_of_lt hcompares.symm hhead)
              simp
            | gt =>
              obtain rfl : o' = .gt := hcompares'.inj (lt_trans hcompares hhead)
              simp
          · obtain rfl : o' = o := hcompares'.inj (hhead ▸ hcompares)
            cases o' with
            | eq => exact ih hvs' hanan.2 hbnan.2 htail ws
            | _ => exact ⟨id, id⟩
        | above hsides =>
          obtain ⟨hsame, hbelow⟩ := hsides v hv
          obtain ⟨hsame', hbelow'⟩ := hsides v' hv'
          rw [hsame, hbelow, hsame', hbelow']
          exact ⟨id, id⟩
        | apart hsides =>
          obtain ⟨hsame, cause, hbelow⟩ := hsides v hv
          obtain ⟨hsame', cause', hbelow'⟩ := hsides v' hv'
          rw [hsame, hbelow, hsame', hbelow']
          simp

/-- A key that is the same as a third one is not below it. -/
theorem less_of_same (ha : Typed domains a) {key : Key} (hsame : order.same a key = true) :
    order.less a key = .ok false := by
  induction ha generalizing key with
  | nil =>
    cases key with
    | nil => rfl
    | cons w ws => cases hsame
  | @cons d v domains vs hv _ ih =>
    cases key with
    | nil => cases hsame
    | cons w ws =>
      rw [same_cons hv, Bool.and_eq_true] at hsame
      rw [less_cons hv, if_pos hsame.1]
      exact ih hsame.2

/-- A key in front of one that is the same as a third one is below it. -/
theorem less_of_line_lt (ha : Typed domains a) (hb : Typed domains b) (hanan : a.hasNaN = false)
    (hbnan : b.hasNaN = false) (hlt : a.line < b.line) {key : Key}
    (hsame : order.same b key = true) : order.less a key = .ok true := by
  induction ha generalizing b key with
  | nil =>
    cases hb
    exact absurd hlt (lt_irrefl _)
  | @cons d v domains vs hv _ ih =>
    cases hb with
    | @cons _ v' _ vs' hv' hvs' =>
      simp only [hasNaN, List.any_cons, Bool.or_eq_false_iff] at hanan hbnan
      cases key with
      | nil => cases hsame
      | cons w ws =>
        rw [same_cons hv', Bool.and_eq_true] at hsame
        obtain ⟨hhere, hrest⟩ := hsame
        rw [less_cons hv]
        cases Value.sides d w with
        | place p hsides =>
          obtain ⟨o, hsame, hbelow, hcompares⟩ := hsides v hv hanan.1
          obtain ⟨o', hsame', -, hcompares'⟩ := hsides v' hv' hbnan.1
          obtain rfl : o' = .eq := by simpa [hhere] using hsame'
          have hplace : v'.line = p := hcompares'
          rcases List.cons_lt_cons_iff.1 hlt with hhead | ⟨hhead, htail⟩
          · obtain rfl : o = .lt := hcompares.inj (lt_of_lt_of_eq hhead hplace)
            rw [hsame, hbelow]
            rfl
          · obtain rfl : o = .eq := hcompares.inj (hhead.trans hplace)
            rw [hsame]
            exact ih hvs' hanan.2 hbnan.2 htail hrest
        | above hsides =>
          exact absurd (hhere.symm.trans (hsides v' hv').1) (by decide)
        | apart hsides =>
          exact absurd (hhere.symm.trans (hsides v' hv').1) (by decide)

/-- Keys of one place are the same as the same keys. -/
theorem same_congr (ha : Typed domains a) (hb : Typed domains b) (hanan : a.hasNaN = false)
    (hbnan : b.hasNaN = false) (hline : a.line = b.line) (key : Key) :
    order.same a key = order.same b key := by
  induction ha generalizing b key with
  | nil =>
    cases hb
    rfl
  | @cons d v domains vs hv _ ih =>
    cases hb with
    | @cons _ v' _ vs' hv' hvs' =>
      simp only [hasNaN, List.any_cons, Bool.or_eq_false_iff] at hanan hbnan
      obtain ⟨hhead, htail⟩ := List.cons.inj hline
      cases key with
      | nil => rfl
      | cons w ws =>
        rw [same_cons hv, same_cons hv', ih hvs' hanan.2 hbnan.2 htail ws]
        congr 1
        cases Value.sides d w with
        | place p hsides =>
          obtain ⟨o, hsame, -, hcompares⟩ := hsides v hv hanan.1
          obtain ⟨o', hsame', -, hcompares'⟩ := hsides v' hv' hbnan.1
          obtain rfl : o' = o := hcompares'.inj (hhead ▸ hcompares)
          rw [hsame, hsame']
        | above hsides =>
          rw [(hsides v hv).1, (hsides v' hv').1]
        | apart hsides =>
          rw [(hsides v hv).1, (hsides v' hv').1]

theorem parts_line (domains : List Domain) (key : Key) :
    order.Parts line {key | Typed domains key ∧ key.hasNaN = false} key where
  below := by
    rintro a ⟨ha, hanan⟩ b ⟨hb, hbnan⟩ hle
    exact (less_mono ha hb hanan hbnan hle key).1
  above := by
    rintro a ⟨ha, hanan⟩ b ⟨hb, hbnan⟩ hle
    exact (less_mono ha hb hanan hbnan hle key).2
  same := by
    rintro b ⟨hb, hbnan⟩ hsame
    refine ⟨less_of_same hb hsame, ?_⟩
    rintro a ⟨ha, hanan⟩ hlt
    exact less_of_line_lt ha hb hanan hbnan hlt hsame

end Key

end KeyedRelations
