import KeyedRelations.Condition
import KeyedRelations.Proofs.Text.Words

/-!
# Reading conditions

A comparison of two attributes whose names are words is read back from its text.
-/

namespace KeyedRelations

theorem Operator.ofSymbol?_symbol (op : Operator) : ofSymbol? op.symbol = some op := by
  cases op <;> decide

theorem Operator.isWord_symbol (op : Operator) : Text.IsWord op.symbol := by
  cases op <;> decide

namespace Comparison

/-- The words of the text of a comparison. -/
theorem words_text {c : Comparison} (hleft : Text.IsWord c.left) (hright : Text.IsWord c.right.text) :
    Text.words c.text = [c.left, c.operator.symbol, c.right.text] := by
  have htext : c.text = " ".intercalate [c.left, c.operator.symbol, c.right.text] := by
    simp only [text, String.intercalate_cons_cons, String.intercalate_singleton, String.append_assoc]
  rw [htext]
  refine Text.words_intercalate fun s hs => ?_
  simp only [List.mem_cons, List.not_mem_nil, or_false] at hs
  obtain rfl | rfl | rfl := hs
  · exact hleft
  · exact c.operator.isWord_symbol
  · exact hright

theorem ofJoin_text {x y : String} (hx : Text.IsWord x) (op : Operator) (hy : Text.IsWord y) :
    ofJoin (text ⟨x, op, .attribute y⟩) = .ok ⟨x, op, .attribute y⟩ := by
  have hwords : Text.words (text ⟨x, op, .attribute y⟩) = [x, op.symbol, y] := words_text hx hy
  unfold ofJoin split
  rw [hwords]
  dsimp only
  rw [op.ofSymbol?_symbol]
  rfl

end Comparison

end KeyedRelations
