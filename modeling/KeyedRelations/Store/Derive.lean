import KeyedRelations.Operation
import KeyedRelations.Store.Basic
import KeyedRelations.Table.Display

/-!
# Results of operations

The result of an operation is a new table. It is named after the first operand and the next number
of a session, that of the first operand if no other is given, and belongs to that session. The
number is taken when the result is there, so a failing operation takes none.
-/

namespace KeyedRelations.Store

/-- Makes the table of a result. -/
def derive (source : TableId) (context : Option SessionId) (r : Relation) : Action TableId := do
  let t ← table source
  let session := context.getD t.session
  let name ← nextName session t.name
  addTable (Table.ofRelation session name r)

/-- Applies an operation to a table. -/
def applyUnary (op : UnaryOperation) (source : TableId) (context : Option SessionId) :
    Action TableId := do
  let t ← table source
  report .debug .algebra (← outcome (op.line t))
  derive source context (← outcome (op.result t))

/-- Applies an operation to two tables. -/
def applyBinary (op : BinaryOperation) (source other : TableId) (context : Option SessionId) :
    Action TableId := do
  let t ← table source
  let u ← table other
  match op.line? t u with
  | some line => report .debug .algebra line
  | none => pure ()
  derive source context (← outcome (op.result t u))

/-! ## Arguments of any kind -/

/-- What a caller passes where several kinds of arguments have a meaning. -/
inductive Argument where
  | value (v : Value)
  | table (id : TableId)
  | predicate (p : Predicate)

namespace Argument

/-- The argument as a text. -/
def shown : Argument → Action String
  | .value v => return v.shown
  | .table id => return (← Store.table id).shown
  | .predicate _ => return Predicate.shown

/-- The items of an argument. A text counts as a sequence of words, a table as one of rows. -/
def items : Argument → Action (List Value)
  | .value (.text s) => return (Text.words s).map .text
  | .value (.list vs) | .value (.tuple vs) => return vs
  | .value (.dict entries) => return entries.map (·.1)
  | .value (.bytes data) => return data.map fun b => .int b.toNat
  | .value v => throw (.notASequence v.kindName)
  | .table id => return (← Store.table id).rows.map Row.toValue
  | .predicate _ => throw (.notASequence "function")

/-- The names among which an item that is no text is refused. -/
def namesFrom (position : Nat) : List Value → Except Fault (List String)
  | [] => .ok []
  | .text name :: rest => do return name :: (← namesFrom (position + 1) rest)
  | v :: _ => .error (.notAName position v.kindName)

end Argument

/-- Keeps the named columns. -/
def project (source : TableId) (attributes : Argument) (context : Option SessionId) :
    Action TableId := do
  let names ← outcome (Argument.namesFrom 0 (← attributes.items))
  applyUnary (.project names) source context

/-- Joins two tables on lists of attributes. -/
def equiJoin (source : TableId) (left right : Argument) (other : TableId)
    (context : Option SessionId) : Action TableId := do
  let leftItems ← left.items
  let rightItems ← right.items
  let leftNames ← outcome (Argument.namesFrom 0 leftItems)
  let rightNames ← outcome (Argument.namesFrom 0 rightItems)
  applyBinary (.equiJoin leftNames rightNames) source other context

/-- Selects by what the argument is: a predicate, a condition of more than one word, or a key. -/
def select (source : TableId) (argument : Argument) : Action TableId := do
  match argument with
  | .predicate p => applyUnary (.selectWhere p) source none
  | .table other =>
    let shown := (← table other).shown
    throw ((← table source).schema.notAKey shown)
  | .value (.text s) =>
    if 1 < (Text.words s).length then applyUnary (.selectCondition s) source none
    else applyUnary (.selectKey (.text s)) source none
  | .value v => applyUnary (.selectKey v) source none

/-- Whether the right columns are wanted. No other keyword has a meaning, and the other table is
given by its place. -/
def projectRightOf (keywords : List (String × Value)) : Except Fault Bool :=
  match keywords.find? fun keyword => keyword.1 ≠ "project_right" with
  | some ("other", _) => .error (.repeatedArgument "natural_join" "other")
  | some (name, _) => .error (.unknownKeyword name)
  | none => .ok ((keywords.head?.map fun keyword => keyword.2.isTrue).getD false)

/-- Joins by what the arguments are: another table, a condition and a table, or two lists of
attributes and a table. -/
def join (source : TableId) (arguments : List Argument) (keywords : List (String × Value)) :
    Action TableId := do
  if keywords.any fun keyword => keyword.1 == "self" then throw (.repeatedArgument "join" "self")
  match arguments, keywords with
  | [.table other], keywords =>
    applyBinary (.naturalJoin (← outcome (projectRightOf keywords))) source other none
  | [.value (.text condition), .table other], [] =>
    applyBinary (.thetaJoin condition) source other none
  | [left, right, .table other], [] => equiJoin source left right other none
  | arguments, [] => throw (.joinArguments (tupleText (← arguments.mapM Argument.shown)))
  | _, keywords => throw (.joinKeywords ((keywords.map (·.1)).mergeSort fun a b => a ≤ b))

end KeyedRelations.Store
