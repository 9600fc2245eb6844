import KeyedRelations.Proofs.Text.Decimal
import KeyedRelations.Proofs.Text.Words
import Mathlib.Data.List.Forall2
import Mathlib.Data.List.Pairwise
import Mathlib.Data.Nat.Digits.Defs

/-!
# Whole numbers as they are written

A whole number is written as one or more decimal digits, the most significant first, with at most one
sign in front. What is written so is read as the number that the digits denote. The digits of
`decimal` are among the ways to write a number, and no way has fewer of them.
-/

namespace KeyedRelations.Text

/-- A character and the digit that it stands for: the digits from zero to nine of a block follow each
other. -/
def IsDigit (c : Char) (d : Nat) : Prop := d ≤ 9 ∧ ∃ first ∈ digitZeros, c.toNat = first + d

/-- One or more decimal digits and what they stand for. -/
def Digits (cs : List Char) (ds : List Nat) : Prop := ds ≠ [] ∧ List.Forall₂ IsDigit cs ds

/-- The number that digits denote, the most significant first. -/
def denoted (ds : List Nat) : Nat := Nat.ofDigits 10 ds.reverse

/-- The ways to write a whole number, with the digits that are used. -/
inductive Writes : List Char → List Nat → Int → Prop
  | unsigned {cs : List Char} {ds : List Nat} (h : Digits cs ds) : Writes cs ds (denoted ds)
  | plus {cs : List Char} {ds : List Nat} (h : Digits cs ds) : Writes ('+' :: cs) ds (denoted ds)
  | minus {cs : List Char} {ds : List Nat} (h : Digits cs ds) : Writes ('-' :: cs) ds (-denoted ds)

/-! ## Digits -/

theorem digitZeros_apart :
    digitZeros.Pairwise fun first other => first + 9 < other ∨ other + 9 < first := by
  decide +kernel

/-- A character is in one block only. -/
theorem eq_of_mem_digitZeros {first other n : Nat} (hfirst : first ∈ digitZeros)
    (hother : other ∈ digitZeros) (h : first ≤ n ∧ n ≤ first + 9) (h' : other ≤ n ∧ n ≤ other + 9) :
    first = other := by
  have : Std.Symm fun first other : Nat => first + 9 < other ∨ other + 9 < first := ⟨fun _ _ => Or.symm⟩
  by_contra hne
  have hapart := digitZeros_apart.forall hfirst hother hne
  omega

theorem digitValue?_eq_some_iff {c : Char} {d : Nat} : digitValue? c = some d ↔ IsDigit c d := by
  unfold digitValue? IsDigit
  constructor
  · intro h
    obtain ⟨first, hfound, rfl⟩ := Option.map_eq_some_iff.1 h
    have hrange := List.find?_some hfound
    simp only [Bool.and_eq_true, decide_eq_true_eq] at hrange
    exact ⟨Nat.sub_le_iff_le_add'.2 hrange.2, first, List.mem_of_find?_eq_some hfound,
      (Nat.add_sub_of_le hrange.1).symm⟩
  · rintro ⟨hd, first, hfirst, hc⟩
    cases hfound : digitZeros.find? fun first => first ≤ c.toNat && c.toNat ≤ first + 9 with
    | none =>
      have hnone := List.find?_eq_none.1 hfound first hfirst
      simp only [Bool.and_eq_true, decide_eq_true_eq] at hnone
      omega
    | some other =>
      have hrange := List.find?_some hfound
      simp only [Bool.and_eq_true, decide_eq_true_eq] at hrange
      obtain rfl := eq_of_mem_digitZeros hfirst (List.mem_of_find?_eq_some hfound)
        ⟨by omega, by omega⟩ hrange
      have hvalue : c.toNat - first = d := by omega
      exact congrArg some hvalue

theorem digitValues?_eq_some_iff {cs : List Char} {ds : List Nat} :
    digitValues? cs = some ds ↔ List.Forall₂ IsDigit cs ds := by
  induction cs generalizing ds with
  | nil => simp [digitValues?, eq_comm]
  | cons c cs ih =>
    unfold digitValues? at ih ⊢
    rw [List.mapM_cons]
    constructor
    · intro h
      obtain ⟨d, hd, h⟩ := Option.bind_eq_some_iff.1 h
      obtain ⟨rest, hrest, h⟩ := Option.bind_eq_some_iff.1 h
      cases h
      exact .cons (digitValue?_eq_some_iff.1 hd) (ih.1 hrest)
    · intro h
      cases h with
      | cons hd hrest =>
        rw [digitValue?_eq_some_iff.2 hd, ih.2 hrest]
        rfl

/-- No sign is a digit. -/
theorem not_isDigit_sign {c : Char} (hc : c = '-' ∨ c = '+') (d : Nat) : ¬IsDigit c d := by
  intro h
  have hvalue := digitValue?_eq_some_iff.2 h
  have hnone : digitValue? c = none := by obtain rfl | rfl := hc <;> decide
  exact absurd (hnone.symm.trans hvalue) (by simp)

theorem lt_of_forall_isDigit {cs : List Char} {ds : List Nat} (h : List.Forall₂ IsDigit cs ds) :
    ∀ d ∈ ds, d < 10 := by
  induction h with
  | nil => simp
  | cons hd _ ih => exact List.forall_mem_cons.2 ⟨Nat.lt_succ_of_le hd.1, ih⟩

theorem blankRanges_apart : ∀ first ∈ digitZeros, ∀ range ∈ blankRanges,
    first + 9 < range.1 ∨ range.2 < first := by
  decide +kernel

theorem IsDigit.not_isBlank {c : Char} {d : Nat} (h : IsDigit c d) : isBlank c = false := by
  obtain ⟨hd, first, hfirst, hc⟩ := h
  unfold isBlank
  refine List.any_eq_false.2 fun range hrange => ?_
  have hapart := blankRanges_apart first hfirst range hrange
  simp only [Bool.and_eq_true, decide_eq_true_eq]
  omega

theorem Digits.unbroken {cs : List Char} {ds : List Nat} (h : Digits cs ds) : Unbroken cs := by
  obtain ⟨hne, hdigits⟩ := h
  induction hdigits with
  | nil => exact absurd rfl hne
  | @cons c d cs ds hd hrest ih =>
    refine ⟨List.cons_ne_nil c cs, List.forall_mem_cons.2 ⟨hd.not_isBlank, ?_⟩⟩
    cases hrest with
    | nil => simp
    | cons => exact (ih (List.cons_ne_nil _ _)).2

/-- A whole number is written as one word. -/
theorem Writes.unbroken {cs : List Char} {ds : List Nat} {n : Int} (h : Writes cs ds n) :
    Unbroken cs := by
  cases h with
  | unsigned h => exact h.unbroken
  | plus h | minus h =>
    exact ⟨List.cons_ne_nil _ _, List.forall_mem_cons.2 ⟨by decide, h.unbroken.2⟩⟩

/-! ## Reading -/

/-- Whether there is a minus sign, and what stands behind the sign. -/
def signed : List Char → Bool × List Char
  | '-' :: cs => (true, cs)
  | '+' :: cs => (false, cs)
  | cs => (false, cs)

theorem signed_of_digits {cs : List Char} {ds : List Nat} (h : Digits cs ds) :
    signed cs = (false, cs) := by
  unfold signed
  split
  · cases h.2 with
    | cons hd => exact absurd hd (not_isDigit_sign (.inl rfl) _)
  · cases h.2 with
    | cons hd => exact absurd hd (not_isDigit_sign (.inr rfl) _)
  · rfl

theorem writes_iff {cs : List Char} {ds : List Nat} {n : Int} :
    Writes cs ds n ↔ Digits (signed cs).2 ds ∧ n = if (signed cs).1 then -(denoted ds : Int) else denoted ds := by
  constructor
  · intro h
    cases h with
    | unsigned h =>
      rw [signed_of_digits h]
      exact ⟨h, rfl⟩
    | plus h | minus h => exact ⟨h, rfl⟩
  · rintro ⟨h, rfl⟩
    unfold signed at h ⊢
    split at h
    · exact .minus h
    · exact .plus h
    · exact .unsigned h

namespace Numeral

theorem value_eq (n : Numeral) :
    n.value = if n.isNegative then -(denoted n.digits : Int) else denoted n.digits := by
  have hmagnitude : n.magnitude = denoted n.digits := by
    unfold magnitude denoted
    rw [Nat.ofDigits_eq_foldr, List.foldr_reverse]
    congr 1
    funext value d
    exact Nat.add_comm _ _
  unfold value
  rw [hmagnitude]

theorem ofText?_eq_some_iff {s : String} {numeral : Numeral} :
    ofText? s = some numeral ↔
      numeral.isNegative = (signed s.toList).1 ∧ Digits (signed s.toList).2 numeral.digits := by
  have hread : ofText? s = (digitValues? (signed s.toList).2).bind fun digits =>
      if digits = [] then none else some ⟨(signed s.toList).1, digits⟩ := by
    unfold ofText? signed
    dsimp only
    rcases digitValues? _ with _ | _ | _ <;> rfl
  unfold Digits
  rw [hread, ← digitValues?_eq_some_iff]
  generalize digitValues? (signed s.toList).2 = digits?
  obtain ⟨isNegative, digits⟩ := numeral
  cases digits? with
  | none => simp
  | some found =>
    cases found with
    | nil => simp +contextual [eq_comm]
    | cons d ds =>
      constructor
      · intro h
        cases h
        exact ⟨rfl, List.cons_ne_nil d ds, rfl⟩
      · rintro ⟨rfl, -, h⟩
        cases h
        rfl

/-- Reading finds the digits and the number of each way to write one. -/
theorem exists_ofText?_iff {s : String} {ds : List Nat} {n : Int} :
    (∃ numeral, ofText? s = some numeral ∧ numeral.digits = ds ∧ numeral.value = n) ↔
      Writes s.toList ds n := by
  rw [writes_iff]
  constructor
  · rintro ⟨numeral, h, rfl, rfl⟩
    obtain ⟨hsign, hdigits⟩ := ofText?_eq_some_iff.1 h
    exact ⟨hdigits, hsign ▸ numeral.value_eq⟩
  · rintro ⟨hdigits, rfl⟩
    exact ⟨⟨(signed s.toList).1, ds⟩, ofText?_eq_some_iff.2 ⟨rfl, hdigits⟩, rfl, value_eq _⟩

end Numeral

/-! ## Writing -/

theorem isDigit_of_mem_toDigits {n : Nat} {c : Char} (h : c ∈ Nat.toDigits 10 n) :
    IsDigit c (c.toNat - '0'.toNat) := by
  have hdigit := Nat.isDigit_of_mem_toDigits (by decide) (by decide) h
  obtain ⟨hlow, hhigh⟩ := Char.isDigit_iff_toNat.1 hdigit
  have hnine : '9'.toNat = '0'.toNat + 9 := rfl
  exact ⟨by omega, '0'.toNat, List.mem_cons_self, by omega⟩

/-- The digits that `decimal` uses. -/
def standardDigits (n : Int) : List Nat := (Nat.toDigits 10 n.natAbs).map fun c => c.toNat - '0'.toNat

theorem denoted_standardDigits (n : Int) : denoted (standardDigits n) = n.natAbs := by
  have hread : Nat.ofDigitChars 10 (Nat.toDigits 10 n.natAbs) 0 = n.natAbs := Nat.ofDigitChars_ten_toDigits
  refine Eq.trans ?_ hread
  unfold denoted standardDigits Nat.ofDigitChars
  rw [Nat.ofDigits_eq_foldr, List.foldr_reverse, List.foldl_map]
  simp [Nat.add_comm]

theorem digits_standardDigits (n : Int) : Digits (Nat.toDigits 10 n.natAbs) (standardDigits n) := by
  unfold standardDigits
  refine ⟨by simp, ?_⟩
  rw [List.forall₂_map_right_iff, List.forall₂_same]
  exact fun c hc => isDigit_of_mem_toDigits hc

/-- A number is written by its absolute value and a minus sign if it is negative. -/
theorem writes_decimal (n : Int) : Writes (decimal n).toList (standardDigits n) n := by
  have hdigits := digits_standardDigits n
  have hdenoted := denoted_standardDigits n
  unfold decimal
  rw [String.toList_ofList]
  split_ifs with hsign
  · have hwrites := Writes.minus hdigits
    rwa [hdenoted, Int.ofNat_natAbs_of_nonpos hsign.le, neg_neg] at hwrites
  · have hwrites := Writes.unsigned hdigits
    rwa [hdenoted, Int.natAbs_of_nonneg (not_lt.1 hsign)] at hwrites

/-- Zeros in front do not change the number. -/
theorem Writes.zeros {cs : List Char} {ds : List Nat} (h : Digits cs ds) (k : Nat) :
    Writes (List.replicate k '0' ++ cs) (List.replicate k 0 ++ ds) (denoted ds) := by
  have hzero : IsDigit '0' 0 := ⟨Nat.zero_le 9, '0'.toNat, List.mem_cons_self, rfl⟩
  have hdigits : Digits (List.replicate k '0' ++ cs) (List.replicate k 0 ++ ds) := by
    refine ⟨by simp [h.1], ?_⟩
    induction k with
    | zero => exact h.2
    | succ k ih => exact .cons hzero ih
  have hdenoted : denoted (List.replicate k 0 ++ ds) = denoted ds := by
    unfold denoted
    rw [List.reverse_append, List.reverse_replicate, Nat.ofDigits_append_replicate_zero]
  exact hdenoted ▸ .unsigned hdigits

/-- No way to write a number has fewer digits than `decimal`. -/
theorem Writes.length_standardDigits_le {cs : List Char} {ds : List Nat} {n : Int} (h : Writes cs ds n) :
    (standardDigits n).length ≤ ds.length := by
  have hvalue : n.natAbs = denoted ds ∧ ∃ text, Digits text ds := by
    cases h with
    | unsigned h | plus h => exact ⟨Int.natAbs_natCast _, _, h⟩
    | minus h => exact ⟨by rw [Int.natAbs_neg, Int.natAbs_natCast], _, h⟩
  obtain ⟨hvalue, text, hne, hdigits⟩ := hvalue
  have hbelow : ∀ d ∈ ds.reverse, d < 10 := fun d hd =>
    lt_of_forall_isDigit hdigits d (List.mem_reverse.1 hd)
  have hlt := Nat.ofDigits_lt_base_pow_length (by decide) hbelow
  unfold standardDigits
  rw [List.length_map, Nat.length_toDigits_le_iff (by decide) (List.length_pos_of_ne_nil hne), hvalue]
  rwa [List.length_reverse] at hlt

end KeyedRelations.Text
