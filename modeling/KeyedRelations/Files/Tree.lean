import KeyedRelations.Fault
import KeyedRelations.Files.Path
import KeyedRelations.MsgPack.Encode

/-!
# A tree of files

Directories and files by location, and the operations that saving and loading need. A path is
resolved name by name: every name but the last must be a directory, and `..` leads back from where
the walk stands, not from the text of the path. An action that fails keeps what it has done so far.
-/

namespace KeyedRelations

/-- What stands at a location. -/
inductive FileNode where
  | directory
  | file (data : MsgPack.Bytes)

/-- The names that lead from the root of the tree to a place in it. -/
abbrev Location := List String

/-- Directories and files other than the root, each at its own location. -/
structure FileTree where
  nodes : List (Location × FileNode)

/-- An action on a tree of files. -/
abbrev FileAction (α : Type) := EStateM Fault FileTree α

namespace FileTree

variable (tree : FileTree)

/-- What stands at a location, if anything does. -/
def node? (location : Location) : Option FileNode :=
  if location = [] then some .directory
  else (tree.nodes.find? fun entry => entry.1 = location).map (·.2)

/-- The tree with a node at a location. -/
def put (location : Location) (node : FileNode) : FileTree :=
  ⟨(location, node) :: tree.nodes.filter fun entry => entry.1 ≠ location⟩

/-- The tree with nothing at a location. -/
def remove (location : Location) : FileTree :=
  ⟨tree.nodes.filter fun entry => entry.1 ≠ location⟩

/-- The most bytes of a file name. -/
def nameLimit : Nat := 255

/-- The most bytes of a path. -/
def pathLimit : Nat := 4095

/-- One step from a location to a name in it, with what stands there. -/
def step (location : Location) (name : String) : Except FileFault (Location × Option FileNode) :=
  match tree.node? location with
  | none => .error .notFound
  | some (.file _) => .error .notADirectory
  | some .directory =>
    if name = ".." then .ok (location.dropLast, some .directory)
    else if nameLimit < name.utf8ByteSize then .error .nameTooLong
    else .ok (location ++ [name], tree.node? (location ++ [name]))

/-- The place that a list of names leads to. Nothing need stand there, but a directory must stand
everywhere before. -/
def walk (location : Location) (here : Option FileNode) :
    List String → Except FileFault (Location × Option FileNode)
  | [] => .ok (location, here)
  | name :: rest => do
    let (next, found) ← tree.step location name
    walk next found rest

/-- The place that a path leads to. -/
def locate (path : Path) : Except Fault (Location × Option FileNode) :=
  if path.hasNul then .error .embeddedNul
  else if pathLimit < path.text.utf8ByteSize then .error (.file .nameTooLong)
  else (tree.walk [] (some .directory) path.parts).mapError .file

/-- Whether a path leads to a directory. Only an overlong name makes the question itself fail. -/
def isDirectory (path : Path) : Except Fault Bool :=
  match tree.locate path with
  | .ok (_, some .directory) => .ok true
  | .error (.file .nameTooLong) => .error (.file .nameTooLong)
  | _ => .ok false

/-- The texts of the locations of all files below a place, in order. -/
def filePaths (place : Location) : List String :=
  let paths := tree.nodes.filterMap fun (location, node) =>
    match node with
    | .file _ => if place.isPrefixOf location then some ("/".intercalate location) else none
    | .directory => none
  paths.mergeSort

end FileTree

namespace FileAction

open FileTree

/-- The place that a path leads to. -/
def locate (path : Path) : FileAction (Location × Option FileNode) := do
  match (← get).locate path with
  | .ok found => return found
  | .error fault => throw fault

def makeDirectory (path : Path) : FileAction Unit := do
  match ← locate path with
  | (_, some _) => throw (.file .alreadyExists)
  | (location, none) => modify (·.put location .directory)

/-- Makes sure that there is a directory, when its parent is there. -/
def ensureDirectory (path : Path) : FileAction Unit :=
  tryCatch (makeDirectory path) fun fault => do
    match fault with
    | .file .notFound => throw fault
    | .file _ =>
      match (← get).isDirectory path with
      | .ok true => return ()
      | .ok false => throw fault
      | .error other => throw other
    | _ => throw fault

/-- Makes sure that there is a directory behind a root and a list of names, from the last name
backwards, which are given in reverse. Missing parents are made first. -/
def ensureAlong (root : String) : List String → FileAction Unit
  | [] => ensureDirectory ⟨root, []⟩
  | name :: before => do
    let path : Path := ⟨root, (name :: before).reverse⟩
    tryCatch (ensureDirectory path) fun fault => do
      match fault with
      | .file .notFound =>
        ensureAlong root before
        ensureDirectory path
      | _ => throw fault

/-- Makes sure that there is a directory, with all its parents. -/
def ensureDirectories (path : Path) : FileAction Unit := ensureAlong path.root path.parts.reverse

def contents (path : Path) : FileAction MsgPack.Bytes := do
  match ← locate path with
  | (_, some (.file data)) => return data
  | (_, some .directory) => throw (.file .isADirectory)
  | (_, none) => throw (.file .notFound)

def write (path : Path) (data : MsgPack.Bytes) : FileAction Unit := do
  match ← locate path with
  | (_, some .directory) => throw (.file .isADirectory)
  | (location, _) => modify (·.put location (.file data))

/-- Moves a file to another path, over a file that is there. -/
def move (source target : Path) : FileAction Unit := do
  match ← locate source, ← locate target with
  | (_, none), _ => throw (.file .notFound)
  | _, (_, some .directory) => throw (.file .isADirectory)
  | (old, some node), (new, _) => modify fun tree => (tree.remove old).put new node

/-- Removes a file, if it is there. -/
def delete (path : Path) : FileAction Unit := do
  match (← get).locate path with
  | .ok (_, some .directory) => throw (.file .isADirectory)
  | .ok (location, some (.file _)) => modify (·.remove location)
  | .ok (_, none) | .error (.file .notFound) => return ()
  | .error fault => throw fault

/-- Whether anything stands at a path. -/
def isPresent (path : Path) : FileAction Bool := do
  match (← get).locate path with
  | .ok (_, some _) => return true
  | _ => return false

end FileAction

end KeyedRelations
