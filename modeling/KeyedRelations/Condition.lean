import KeyedRelations.Fault
import KeyedRelations.Text.Blank

/-!
# Conditions

A condition is written in three words: an attribute, an operator, and either a whole number (a
selection) or another attribute (a join). A condition that is not of this form is refused before
any row is looked at. `Comparison.text` writes a condition in its one canonical form.
-/

namespace KeyedRelations

/-- What an attribute is compared with. -/
inductive Operand where
  | attribute (name : String)
  | literal (n : Int)
  deriving DecidableEq

def Operand.text : Operand → String
  | .attribute name => name
  | .literal n => Text.decimal n

/-- An operand as a value. -/
def Operand.toValue : Operand → Value
  | .attribute name => .text name
  | .literal n => .int n

/-- A comparison of an attribute with an operand. -/
structure Comparison where
  left : String
  operator : Operator
  right : Operand
  deriving DecidableEq

/-- The words of a comparison, whose operator has not been looked up. -/
structure Clause where
  left : String
  symbol : String
  right : Operand
  deriving DecidableEq

namespace Clause

def text (c : Clause) : String := c.left ++ " " ++ c.symbol ++ " " ++ c.right.text

/-- Compares two values by the operator that the clause names. -/
def test (c : Clause) (a b : Value) : Except Fault Bool :=
  match Operator.ofSymbol? c.symbol with
  | none => .error (.noOperator c.symbol)
  | some op => (op.test a b).mapError .incomparable

end Clause

namespace Comparison

def text (c : Comparison) : String := c.left ++ " " ++ c.operator.symbol ++ " " ++ c.right.text

def test (c : Comparison) (a b : Value) : Except Fault Bool :=
  (c.operator.test a b).mapError .incomparable

/-- The three words of a condition, with the operator looked up. -/
def split (condition : String) : Except Fault (String × Operator × String) :=
  match Text.words condition with
  | [left, symbol, right] =>
    match Operator.ofSymbol? symbol with
    | some op => .ok (left, op, right)
    | none => .error (.condition condition (.operator symbol))
  | words => .error (.condition condition (.tokenCount words.length))

/-- Reads a comparison of an attribute with a whole number. -/
def ofSelection (condition : String) : Except Fault Comparison := do
  let (left, operator, right) ← split condition
  match Text.Numeral.ofText? right with
  | none => throw (.condition condition (.literal right))
  | some numeral =>
    if Fault.numeralLimit < numeral.digits.length then
      throw (.numeralLength numeral.digits.length)
    return ⟨left, operator, .literal numeral.value⟩

/-- Reads a comparison of two attributes. -/
def ofJoin (condition : String) : Except Fault Comparison := do
  let (left, operator, right) ← split condition
  return ⟨left, operator, .attribute right⟩

end Comparison

end KeyedRelations
