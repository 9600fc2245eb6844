import KeyedRelations.Proofs.Condition.Reading
import KeyedRelations.Proofs.Index.Passage
import KeyedRelations.Proofs.Text.Numerals
import KeyedRelations.Proofs.Text.Splitting

/-!
# The grammar of conditions

A condition is split into three words, an attribute, an operator and an attribute or a whole number.
Exactly the texts of this form are read, and every other text is refused as a condition, except that a
number of too many digits is refused for its length.
-/

namespace KeyedRelations

theorem Operator.ofSymbol?_eq_some_iff {s : String} {op : Operator} :
    ofSymbol? s = some op ↔ s = op.symbol := by
  constructor
  · intro h
    have hsymbol := List.find?_some h
    exact (eq_of_beq hsymbol).symm
  · rintro rfl
    exact op.ofSymbol?_symbol

namespace Comparison

/-- Whether a text is a comparison with an attribute: the names and the operator between them. -/
def OfNames (s : String) (c : Comparison) : Prop :=
  ∃ name, Text.SplitsInto s [c.left, c.operator.symbol, name] ∧ c.right = .attribute name

/-- Whether a text is a comparison with a whole number that is written in some digits. -/
def OfNumber (s : String) (digits : List Nat) (c : Comparison) : Prop :=
  ∃ word n, Text.SplitsInto s [c.left, c.operator.symbol, word] ∧
    Text.Writes word.toList digits n ∧ c.right = .literal n

theorem split_eq_ok_iff {s left right : String} {op : Operator} :
    split s = .ok (left, op, right) ↔ Text.SplitsInto s [left, op.symbol, right] := by
  rw [← Text.words_eq_iff]
  unfold split
  constructor
  · intro h
    split at h
    · rename_i hwords
      split at h
      · rename_i op' hop
        cases h
        rw [hwords, Operator.ofSymbol?_eq_some_iff.1 hop]
      · cases h
    · cases h
  · intro hwords
    rw [hwords]
    dsimp only
    rw [op.ofSymbol?_symbol]

theorem error_split {s : String} {fault : Fault} (h : split s = .error fault) :
    ∃ cause, fault = .condition s cause := by
  unfold split at h
  split at h
  · split at h
    · cases h
    · cases h
      exact ⟨_, rfl⟩
  · cases h
    exact ⟨_, rfl⟩

/-- An attribute, an operator and a number in one text. -/
theorem ofNumber_of_writes {x word : String} (hx : Text.IsWord x) (op : Operator) {digits : List Nat}
    {n : Int} (h : Text.Writes word.toList digits n) :
    OfNumber (x ++ " " ++ op.symbol ++ " " ++ word) digits ⟨x, op, .literal n⟩ := by
  have hwords : Text.words (text ⟨x, op, .attribute word⟩) = [x, op.symbol, word] :=
    words_text hx h.unbroken
  exact ⟨word, n, Text.words_eq_iff.1 hwords, h, rfl⟩

/-! ## What is read -/

theorem OfNames.ofJoin_eq {s : String} {c : Comparison} (h : OfNames s c) : ofJoin s = .ok c := by
  obtain ⟨left, operator, right⟩ := c
  obtain ⟨name, hsplit, rfl⟩ := h
  unfold ofJoin
  rw [split_eq_ok_iff.2 hsplit]
  rfl

theorem ofJoin_cases (s : String) :
    (∃ c, OfNames s c) ∨ ∃ cause, ofJoin s = .error (.condition s cause) := by
  unfold ofJoin
  cases hsplit : split s with
  | error fault =>
    obtain ⟨cause, rfl⟩ := error_split hsplit
    exact .inr ⟨cause, rfl⟩
  | ok found =>
    obtain ⟨left, operator, right⟩ := found
    exact .inl ⟨⟨left, operator, .attribute right⟩, right, split_eq_ok_iff.1 hsplit, rfl⟩

theorem OfNumber.ofSelection_eq {s : String} {digits : List Nat} {c : Comparison}
    (h : OfNumber s digits c) :
    ofSelection s = if Fault.numeralLimit < digits.length then .error (.numeralLength digits.length)
      else .ok c := by
  obtain ⟨left, operator, right⟩ := c
  obtain ⟨word, n, hsplit, hwrites, rfl⟩ := h
  obtain ⟨numeral, hnumeral, rfl, rfl⟩ := Text.Numeral.exists_ofText?_iff.2 hwrites
  unfold ofSelection
  simp only [split_eq_ok_iff.2 hsplit, hnumeral, bind, Except.bind]
  split_ifs <;> rfl

theorem ofSelection_cases (s : String) :
    (∃ digits c, OfNumber s digits c) ∨ ∃ cause, ofSelection s = .error (.condition s cause) := by
  unfold ofSelection
  cases hsplit : split s with
  | error fault =>
    obtain ⟨cause, rfl⟩ := error_split hsplit
    exact .inr ⟨cause, rfl⟩
  | ok found =>
    obtain ⟨left, operator, right⟩ := found
    cases hnumeral : Text.Numeral.ofText? right with
    | none =>
      refine .inr ⟨.literal right, ?_⟩
      simp only [hnumeral, bind, Except.bind]
      rfl
    | some numeral =>
      exact .inl ⟨numeral.digits, ⟨left, operator, .literal numeral.value⟩, right, numeral.value,
        split_eq_ok_iff.1 hsplit, Text.Numeral.exists_ofText?_iff.1 ⟨numeral, hnumeral, rfl, rfl⟩, rfl⟩

theorem ofJoin_eq_ok_iff {s : String} {c : Comparison} : ofJoin s = .ok c ↔ OfNames s c := by
  refine ⟨fun h => ?_, OfNames.ofJoin_eq⟩
  rcases ofJoin_cases s with ⟨other, hother⟩ | ⟨cause, hrefused⟩
  · obtain rfl := Except.ok.inj (hother.ofJoin_eq.symm.trans h)
    exact hother
  · cases hrefused.symm.trans h

theorem ofSelection_eq_ok_iff {s : String} {c : Comparison} :
    ofSelection s = .ok c ↔ ∃ digits, OfNumber s digits c ∧ digits.length ≤ Fault.numeralLimit := by
  constructor
  · intro h
    rcases ofSelection_cases s with ⟨digits, other, hother⟩ | ⟨cause, hrefused⟩
    · have hresult := hother.ofSelection_eq.symm.trans h
      split_ifs at hresult with hlimit
      obtain rfl := Except.ok.inj hresult
      exact ⟨digits, hother, not_lt.1 hlimit⟩
    · cases hrefused.symm.trans h
  · rintro ⟨digits, hnumber, hlimit⟩
    rw [hnumber.ofSelection_eq, if_neg (not_lt.2 hlimit)]

/-- A text is read as a join just if it has the form of one, and else refused as a condition. It is read as
a selection just if it has the form of one and its number has not too many digits. With too many digits it
is refused for their count, and a text of another form as a condition. -/
theorem read_by_grammar (s : String) :
    (∀ c, ofJoin s = .ok c ↔ OfNames s c) ∧
    (∀ fault, ofJoin s = .error fault → ∃ cause, fault = .condition s cause) ∧
    (∀ c, ofSelection s = .ok c ↔
      ∃ digits, OfNumber s digits c ∧ digits.length ≤ Fault.numeralLimit) ∧
    (∀ count, ofSelection s = .error (.numeralLength count) ↔
      ∃ digits c, OfNumber s digits c ∧ digits.length = count ∧ Fault.numeralLimit < count) ∧
    ∀ fault, ofSelection s = .error fault →
      (∃ cause, fault = .condition s cause) ∨ ∃ count, fault = .numeralLength count := by
  refine ⟨fun c => ofJoin_eq_ok_iff, fun fault h => ?_, fun c => ofSelection_eq_ok_iff,
    fun count => ⟨fun h => ?_, ?_⟩, fun fault h => ?_⟩
  · rcases ofJoin_cases s with ⟨c, hc⟩ | ⟨cause, hrefused⟩
    · cases hc.ofJoin_eq.symm.trans h
    · exact ⟨cause, Except.error.inj (h.symm.trans hrefused)⟩
  · rcases ofSelection_cases s with ⟨digits, c, hc⟩ | ⟨cause, hrefused⟩
    · have hresult := hc.ofSelection_eq.symm.trans h
      split_ifs at hresult with hlimit
      cases hresult
      exact ⟨digits, c, hc, rfl, hlimit⟩
    · cases hrefused.symm.trans h
  · rintro ⟨digits, c, hc, rfl, hlimit⟩
    rw [hc.ofSelection_eq, if_pos hlimit]
  · rcases ofSelection_cases s with ⟨digits, c, hc⟩ | ⟨cause, hrefused⟩
    · have hresult := hc.ofSelection_eq.symm.trans h
      split_ifs at hresult
      exact .inr ⟨digits.length, (Except.error.inj hresult).symm⟩
    · exact .inl ⟨cause, Except.error.inj (h.symm.trans hrefused)⟩

/-- Seven with zeros in front is a number, but for their count it is not read. -/
theorem long_number_not_read :
    let s := "n == " ++ String.ofList (List.replicate 4300 '0' ++ ['7'])
    OfNumber s (List.replicate 4300 0 ++ [7]) ⟨"n", .eq, .literal 7⟩ ∧
      ofSelection s ≠ .ok ⟨"n", .eq, .literal 7⟩ ∧ ∀ cause, ofSelection s ≠ .error (.condition s cause) := by
  have hseven : Text.Digits ['7'] [7] :=
    ⟨by decide, .cons (Text.digitValue?_eq_some_iff.1 (by decide)) .nil⟩
  have hwrites := Text.Writes.zeros hseven 4300
  have hfront : "n == " = "n" ++ " " ++ Operator.eq.symbol ++ " " := by decide
  have hlength : (List.replicate 4300 0 ++ [7]).length = 4301 := by
    rw [List.length_append, List.length_replicate, List.length_singleton]
  generalize List.replicate 4300 '0' ++ ['7'] = cs at hwrites ⊢
  generalize List.replicate 4300 0 ++ [7] = digits at hwrites hlength ⊢
  rw [← String.toList_ofList (l := cs)] at hwrites
  have hnumber := ofNumber_of_writes (by decide : Text.IsWord "n") .eq hwrites
  rw [← hfront] at hnumber
  have hresult := hnumber.ofSelection_eq
  rw [hlength, if_pos (by decide)] at hresult
  dsimp only
  rw [hresult]
  exact ⟨hnumber, nofun, nofun⟩

end Comparison

end KeyedRelations
