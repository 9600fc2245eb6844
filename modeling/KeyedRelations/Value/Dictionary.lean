import KeyedRelations.Value.Order

/-!
# Dictionaries

The keys of a dictionary are values that never change: lists, dictionaries and data of unknown types
are no keys, and neither is a sequence that holds one of them. A dictionary keeps the place of a key
that is set again, together with its first spelling.
-/

namespace KeyedRelations.Value

mutual

/-- The kind of the first part of a value that has no place among the keys of a dictionary. -/
def unhashableKind? : Value → Option String
  | .list _ => some "list"
  | .dict _ => some "dict"
  | .extension _ _ => some "Ext"
  | .tuple items => unhashableAmong? items
  | .key values => unhashableAmong? values
  | _ => none

def unhashableAmong? : List Value → Option String
  | [] => none
  | v :: vs =>
    match v.unhashableKind? with
    | some kind => some kind
    | none => unhashableAmong? vs

end

/-- Sets the value of a key: in its place if there is an equal key, else at the end. -/
def setEntry (k v : Value) : List (Value × Value) → List (Value × Value)
  | [] => [(k, v)]
  | (k', v') :: rest => if same k' k then (k', v) :: rest else (k', v') :: setEntry k v rest

/-- The dictionary that results from setting entries one after the other. -/
def dictOf (entries : List (Value × Value)) : Value :=
  .dict (entries.foldl (fun done e => setEntry e.1 e.2 done) [])

end KeyedRelations.Value
