/-!
# File paths

A path is a root, if it has one, and the names behind it. Empty names and the name `.` say nothing
and are dropped when a path is read; `..` stays. Two leading slashes are a root of their own.
-/

namespace KeyedRelations

/-- A file path, absolute if its root is not empty. -/
structure Path where
  root : String
  parts : List String
  deriving DecidableEq

namespace Path

/-- The names between the slashes of a text. -/
def splitNames (s : String) : List String :=
  ((s.toList.splitOn '/').map String.ofList).filter fun name => name != "" && name != "."

/-- The root of a path written as a text: any number of leading slashes but two is one. -/
def rootOf (s : String) : String :=
  match s.toList with
  | '/' :: '/' :: '/' :: _ => "/"
  | '/' :: '/' :: _ => "//"
  | '/' :: _ => "/"
  | _ => ""

def ofString (s : String) : Path := ⟨rootOf s, splitNames s⟩

def text (p : Path) : String :=
  if p.root = "" ∧ p.parts = [] then "." else p.root ++ "/".intercalate p.parts

/-- The second path as seen from the first; an absolute path is seen as itself. -/
def join (p q : Path) : Path :=
  if q.root = "" then ⟨p.root, p.parts ++ q.parts⟩ else q

/-- The path without its last name. -/
def parent (p : Path) : Path := ⟨p.root, p.parts.dropLast⟩

/-- The path with something added to its last name. -/
def withSuffix (p : Path) (suffix : String) : Path :=
  ⟨p.root, p.parts.dropLast ++ (p.parts.getLast?.map (· ++ suffix)).toList⟩

/-- Whether a name holds the character that no file name may hold. -/
def hasNul (p : Path) : Bool := p.parts.any (·.toList.contains '\x00')

end Path

end KeyedRelations
