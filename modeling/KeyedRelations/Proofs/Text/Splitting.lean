import KeyedRelations.Proofs.Text.Words

/-!
# Texts as words and gaps

A text is split into words if it consists of these words with blanks around them, any two of them apart.
Every text is split in just one way, and `words` finds it.
-/

namespace KeyedRelations.Text

/-- The words that a text consists of, besides blanks. After a word there is a blank or nothing. -/
inductive Split : List Char → List (List Char) → Prop
  | blanks {gap : List Char} (hgap : ∀ b ∈ gap, isBlank b = true) : Split gap []
  | word {gap word rest : List Char} {others : List (List Char)} (hgap : ∀ b ∈ gap, isBlank b = true)
      (hword : Unbroken word) (hafter : ∀ b ∈ rest.head?, isBlank b = true) (hrest : Split rest others) :
      Split (gap ++ word ++ rest) (word :: others)

variable {c d : Char} {cs gap : List Char} {found : List (List Char)}

theorem wordsOf_gap (hgap : ∀ b ∈ gap, isBlank b = true) (cs : List Char) :
    wordsOf (gap ++ cs) = wordsOf cs := by
  induction gap with
  | nil => rfl
  | cons b gap ih =>
    obtain ⟨hb, hgap⟩ := List.forall_mem_cons.1 hgap
    rw [List.cons_append, wordsOf_blank hb, ih hgap]

theorem Split.wordsOf_eq (h : Split cs found) : wordsOf cs = found := by
  induction h with
  | @blanks gap hgap =>
    have hnone := wordsOf_gap hgap []
    rwa [List.append_nil] at hnone
  | word hgap hword hafter _ ih => rw [List.append_assoc, wordsOf_gap hgap, wordsOf_append hword hafter, ih]

/-! ## Every text is split -/

theorem Split.cons_blank (hc : isBlank c = true) (h : Split cs found) : Split (c :: cs) found := by
  cases h with
  | blanks hgap => exact .blanks (List.forall_mem_cons.2 ⟨hc, hgap⟩)
  | @word gap _ _ _ hgap hword hafter hrest =>
    exact @Split.word (c :: gap) _ _ _ (List.forall_mem_cons.2 ⟨hc, hgap⟩) hword hafter hrest

/-- A character in front of a word belongs to it. -/
theorem Split.cons_letter (hc : isBlank c = false) (hd : isBlank d = false)
    (h : Split (d :: cs) found) : Split (c :: d :: cs) (found.modifyHead (c :: ·)) := by
  generalize htext : d :: cs = text at h ⊢
  cases h with
  | blanks hgap =>
    have hblank := hgap d (htext ▸ List.mem_cons_self)
    exact absurd (hblank.symm.trans hd) (by decide)
  | @word gap word rest others hgap hword hafter hrest =>
    -- The text does not start with a blank, so there is none in front of its first word.
    cases gap with
    | nil =>
      have hletters : Unbroken (c :: word) :=
        ⟨List.cons_ne_nil c word, List.forall_mem_cons.2 ⟨hc, hword.2⟩⟩
      exact @Split.word [] _ _ _ hgap hletters hafter hrest
    | cons b gap =>
      obtain rfl : d = b := (List.cons.inj htext).1
      have hblank := hgap d List.mem_cons_self
      exact absurd (hblank.symm.trans hd) (by decide)

theorem split_wordsOf (cs : List Char) : Split cs (wordsOf cs) := by
  induction cs with
  | nil => exact .blanks (by simp)
  | cons c cs ih =>
    cases hc : isBlank c with
    | true =>
      rw [wordsOf_blank hc]
      exact ih.cons_blank hc
    | false =>
      have hletter : Unbroken [c] := ⟨List.cons_ne_nil c [], by simpa using hc⟩
      cases cs with
      | nil =>
        rw [wordsOf, if_neg (by simp [hc])]
        exact @Split.word [] _ _ _ (by simp) hletter (by simp) ih
      | cons d cs =>
        rw [wordsOf, if_neg (by simp [hc])]
        cases hd : isBlank d with
        | true =>
          rw [if_pos rfl]
          exact @Split.word [] _ _ _ (by simp) hletter (by simpa using hd) ih
        | false => exact ih.cons_letter hc hd

/-! ## Words of texts -/

/-- Whether a text is split into the given words. -/
def SplitsInto (s : String) (found : List String) : Prop := Split s.toList (found.map String.toList)

theorem words_eq_iff {s : String} {found : List String} : words s = found ↔ SplitsInto s found := by
  unfold words SplitsInto
  constructor
  · rintro rfl
    have htexts : ((wordsOf s.toList).map String.ofList).map String.toList = wordsOf s.toList := by
      simp [Function.comp_def]
    exact htexts.symm ▸ split_wordsOf s.toList
  · intro h
    rw [h.wordsOf_eq, List.map_map]
    simp [Function.comp_def]

/-- What a text is split into are words. -/
theorem SplitsInto.isWord {s : String} {found : List String} (h : SplitsInto s found) :
    ∀ word ∈ found, IsWord word := by
  suffices hwords : ∀ cs found, Split cs found → ∀ word ∈ found, Unbroken word from
    fun word hword => hwords _ _ h _ (List.mem_map_of_mem hword)
  intro cs found hsplit
  induction hsplit with
  | blanks => simp
  | word _ hword _ _ ih => exact List.forall_mem_cons.2 ⟨hword, ih⟩

end KeyedRelations.Text
