import KeyedRelations.Text.Blank

/-!
# Words

Words that are written with one blank between them are read back.
-/

namespace KeyedRelations.Text

/-- Characters that stand together in one word. -/
def Unbroken (cs : List Char) : Prop := cs ≠ [] ∧ ∀ c ∈ cs, isBlank c = false

/-- A text that is one word. -/
def IsWord (s : String) : Prop := Unbroken s.toList

instance : DecidablePred IsWord := fun s =>
  decidable_of_iff (s.toList ≠ [] ∧ s.toList.all (!isBlank ·) = true) (by simp [IsWord, Unbroken])

/-- A word ends at a blank or at the end of the text. -/
theorem wordsOf_append {cs rest : List Char} (h : Unbroken cs) (hrest : ∀ b ∈ rest.head?, isBlank b) :
    wordsOf (cs ++ rest) = cs :: wordsOf rest := by
  obtain ⟨hne, hcs⟩ := h
  induction cs with
  | nil => exact absurd rfl hne
  | cons c cs ih =>
    obtain ⟨hc, hcs⟩ := List.forall_mem_cons.1 hcs
    cases cs with
    | nil =>
      cases rest with
      | nil => simp [wordsOf, hc]
      | cons b rest =>
        have hb : isBlank b = true := hrest b rfl
        simp [wordsOf, hc, hb]
    | cons d cs =>
      have hd : isBlank d = false := hcs d List.mem_cons_self
      rw [List.cons_append, List.cons_append, wordsOf, if_neg (by simp [hc]), if_neg (by simp [hd]),
        ← List.cons_append, ih (by simp) hcs]
      rfl

theorem wordsOf_blank {b : Char} (h : isBlank b = true) (cs : List Char) :
    wordsOf (b :: cs) = wordsOf cs := by
  cases cs <;> simp [wordsOf, h]

theorem wordsOf_space (cs : List Char) : wordsOf (' ' :: cs) = wordsOf cs := wordsOf_blank (by decide) cs

theorem wordsOf_intercalate {css : List (List Char)} (h : ∀ cs ∈ css, Unbroken cs) :
    wordsOf ([' '].intercalate css) = css := by
  induction css with
  | nil => rfl
  | cons cs css ih =>
    obtain ⟨hcs, hcss⟩ := List.forall_mem_cons.1 h
    cases css with
    | nil =>
      have hlast : wordsOf (cs ++ []) = [cs] := wordsOf_append hcs (by simp)
      rw [List.intercalate_singleton]
      rwa [List.append_nil] at hlast
    | cons next css =>
      have hspace : ∀ b ∈ (' ' :: [' '].intercalate (next :: css)).head?, isBlank b := by
        rintro b ⟨⟩
        decide
      rw [List.intercalate_cons_cons, List.append_assoc, List.singleton_append,
        wordsOf_append hcs hspace, wordsOf_space, ih hcss]

theorem words_intercalate {texts : List String} (h : ∀ s ∈ texts, IsWord s) :
    words (" ".intercalate texts) = texts := by
  have hcss : ∀ cs ∈ texts.map String.toList, Unbroken cs := by
    intro cs hcs
    obtain ⟨s, hs, rfl⟩ := List.mem_map.1 hcs
    exact h s hs
  unfold words
  rw [String.toList_intercalate]
  change (wordsOf ([' '].intercalate _)).map String.ofList = texts
  rw [wordsOf_intercalate hcss, List.map_map]
  simp [Function.comp_def]

end KeyedRelations.Text
