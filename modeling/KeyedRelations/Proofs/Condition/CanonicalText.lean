import KeyedRelations.Proofs.Condition.Grammar

/-!
# The canonical text of a condition

A condition that has been read is written with one blank between its words, and its number without
leading zeros and in the digits `0` to `9`. This text is read as the same condition, so it stands for all
texts of the condition.
-/

namespace KeyedRelations.Comparison

variable {s : String} {c d : Comparison}

/-- A comparison with a number that can be read is read back from its text. -/
theorem OfNumber.ofSelection_text {digits : List Nat} (h : OfNumber s digits c)
    (hlimit : digits.length ≤ Fault.numeralLimit) : ofSelection c.text = .ok c := by
  obtain ⟨left, operator, right⟩ := c
  obtain ⟨word, n, hsplit, hwrites, rfl⟩ := h
  have hleft : Text.IsWord left := hsplit.isWord left List.mem_cons_self
  have htext : OfNumber (text ⟨left, operator, .literal n⟩) (Text.standardDigits n)
      ⟨left, operator, .literal n⟩ :=
    ofNumber_of_writes hleft operator (Text.writes_decimal n)
  have hlength := hwrites.length_standardDigits_le
  exact ofSelection_eq_ok_iff.2 ⟨_, htext, hlength.trans hlimit⟩

/-- A comparison of names is read back from its text. -/
theorem OfNames.ofJoin_text (h : OfNames s c) : ofJoin c.text = .ok c := by
  obtain ⟨left, operator, right⟩ := c
  obtain ⟨name, hsplit, rfl⟩ := h
  have hwords := hsplit.isWord
  exact Comparison.ofJoin_text (hwords left (by simp)) operator (hwords name (by simp))

/-- Whether the texts of comparisons are canonical for a way of reading them: the text of a comparison that
was read is read as this comparison, and two texts are read alike just if these texts are equal. -/
structure CanonicalFor (read : String → Except Fault Comparison) : Prop where
  read_text : ∀ {s c}, read s = .ok c → read c.text = .ok c
  text_eq_iff : ∀ {s t c d}, read s = .ok c → read t = .ok d → (c.text = d.text ↔ c = d)

/-- Reading back is enough. -/
theorem canonicalFor_of_read_text {read : String → Except Fault Comparison}
    (h : ∀ {s c}, read s = .ok c → read c.text = .ok c) : CanonicalFor read where
  read_text := h
  text_eq_iff {s t c d} hc hd := by
    refine ⟨fun htext => ?_, congrArg text⟩
    have hboth : read d.text = .ok c := htext ▸ h hc
    exact Except.ok.inj (hboth.symm.trans (h hd))

/-- The text of a condition that was read is read as this condition, so two texts that can be read have the
same canonical text just if they are read as the same condition. -/
theorem canonical_texts : CanonicalFor ofSelection ∧ CanonicalFor ofJoin := by
  refine ⟨canonicalFor_of_read_text fun h => ?_, canonicalFor_of_read_text fun h => ?_⟩
  · obtain ⟨digits, hnumber, hlimit⟩ := ofSelection_eq_ok_iff.1 h
    exact hnumber.ofSelection_text hlimit
  · exact (ofJoin_eq_ok_iff.1 h).ofJoin_text

/-- Other blanks, a leading zero and digits of another script, and the canonical text. -/
theorem canonical_texts_other_digits :
    let c : Comparison := ⟨"year", .eq, .literal (-7)⟩
    ofSelection "\tyear  ==\u3000-0\u0667\n" = .ok c ∧ c.text = "year == -7" ∧
      ofSelection "year == -7" = .ok c := by
  intro c
  have hread : ofSelection "\tyear  ==\u3000-0\u0667\n" = .ok c := rfl
  have htext : c.text = "year == -7" := by decide
  exact ⟨hread, htext, htext ▸ canonical_texts.1.read_text hread⟩

end KeyedRelations.Comparison
