import KeyedRelations.Files.Tree
import Mathlib

/-!
# What stands at a path

A path that leads to a file, or to nothing, leads to the same place as long as the directories stay
where they are. So a file that has been written, or moved over another one, is found under its
path.
-/

namespace KeyedRelations

namespace FileTree

variable {tree tree' : FileTree} {location other place : Location} {node : FileNode}

/-! ## Nodes -/

theorem find?_filter_of_ne (hne : other ≠ location) (nodes : List (Location × FileNode)) :
    (nodes.filter fun entry => entry.1 ≠ location).find? (fun entry => entry.1 = other) =
      nodes.find? fun entry => entry.1 = other := by
  rw [List.find?_filter]
  refine congrArg (fun test => nodes.find? test) (funext fun entry => ?_)
  by_cases h : entry.1 = other
  · simp [h, hne]
  · simp [h]

theorem node?_put_self (hplace : location ≠ []) :
    (tree.put location node).node? location = some node := by
  simp [node?, put, hplace]

theorem node?_put_of_ne (hne : other ≠ location) :
    (tree.put location node).node? other = tree.node? other := by
  unfold node? put
  dsimp only
  rw [List.find?_cons_of_neg (by simpa using Ne.symm hne), find?_filter_of_ne hne]

theorem node?_remove_of_ne (hne : other ≠ location) :
    (tree.remove location).node? other = tree.node? other := by
  unfold node? remove
  dsimp only
  rw [find?_filter_of_ne hne]

/-! ## Paths -/

/-- Whether the directories of one tree are directories of another. -/
def DirectoriesStay (tree tree' : FileTree) : Prop :=
  ∀ location, tree.node? location = some .directory → tree'.node? location = some .directory

theorem directoriesStay_refl (tree : FileTree) : DirectoriesStay tree tree := fun _ h => h

theorem DirectoriesStay.trans {tree'' : FileTree} (h : DirectoriesStay tree tree')
    (h' : DirectoriesStay tree' tree'') : DirectoriesStay tree tree'' :=
  fun location hlocation => h' location (h location hlocation)

/-- The ways in which a step can be taken. -/
theorem step_cases {name : String} {next : Location} {found : Option FileNode}
    (h : tree.step location name = .ok (next, found)) :
    tree.node? location = some .directory ∧
      ((name = ".." ∧ next = location.dropLast ∧ found = some .directory) ∨
        (name ≠ ".." ∧ ¬nameLimit < name.utf8ByteSize ∧ next = location ++ [name] ∧
          found = tree.node? next)) := by
  unfold step at h
  split at h
  · cases h
  · cases h
  · rename_i hdirectory
    split_ifs at h with hup hlong
    · cases h
      exact ⟨hdirectory, .inl ⟨hup, rfl, rfl⟩⟩
    · cases h
      exact ⟨hdirectory, .inr ⟨hup, hlong, rfl, rfl⟩⟩

theorem DirectoriesStay.step (hstay : DirectoriesStay tree tree') {name : String} {next : Location}
    {found : Option FileNode} (h : tree.step location name = .ok (next, found)) :
    ∃ found', tree'.step location name = .ok (next, found') ∧ (found ≠ some .directory →
      next ≠ [] ∧ found = tree.node? next ∧ found' = tree'.node? next) := by
  obtain ⟨hdirectory, ⟨rfl, rfl, rfl⟩ | ⟨hup, hlong, rfl, rfl⟩⟩ := step_cases h
  · refine ⟨some .directory, ?_, fun hfile => absurd rfl hfile⟩
    simp [FileTree.step, hstay location hdirectory]
  · refine ⟨tree'.node? (location ++ [name]), ?_, fun _ => ⟨by simp, rfl, rfl⟩⟩
    simp [FileTree.step, hstay location hdirectory, hup, hlong]

theorem DirectoriesStay.walk (hstay : DirectoriesStay tree tree') {names : List String}
    (hnames : names ≠ []) {here here' found : Option FileNode}
    (h : tree.walk location here names = .ok (place, found)) (hfile : found ≠ some .directory) :
    tree'.walk location here' names = .ok (place, tree'.node? place) ∧ place ≠ [] ∧
      found = tree.node? place := by
  induction names generalizing location here here' with
  | nil => exact absurd rfl hnames
  | cons name rest ih =>
    unfold FileTree.walk at h ⊢
    cases hstep : tree.step location name with
    | error fault =>
      rw [hstep] at h
      cases h
    | ok reached =>
      obtain ⟨next, between⟩ := reached
      rw [hstep] at h
      obtain ⟨between', hstep', hend⟩ := hstay.step hstep
      rw [hstep']
      cases rest with
      -- Only the last name may lead to something else in the other tree.
      | nil =>
        cases h
        obtain ⟨hne, hfound, rfl⟩ := hend hfile
        exact ⟨rfl, hne, hfound⟩
      | cons following rest => exact @ih next (by simp) between between' h

/-- As long as directories stay, a path that does not lead to one leads to the same place. -/
theorem DirectoriesStay.locate (hstay : DirectoriesStay tree tree') {path : Path}
    {found : Option FileNode} (h : tree.locate path = .ok (place, found))
    (hfile : found ≠ some .directory) :
    tree'.locate path = .ok (place, tree'.node? place) ∧ place ≠ [] ∧ found = tree.node? place := by
  unfold FileTree.locate at h ⊢
  split_ifs at h ⊢ with hnul hlong
  cases hwalk : tree.walk [] (some .directory) path.parts with
  | error fault =>
    rw [hwalk] at h
    cases h
  | ok reached =>
    rw [hwalk] at h
    cases h
    have hnames : path.parts ≠ [] := by
      intro hempty
      rw [hempty] at hwalk
      cases hwalk
      exact hfile rfl
    obtain ⟨hwalk', hplace⟩ := hstay.walk hnames hwalk hfile
    rw [hwalk']
    exact ⟨rfl, hplace⟩

theorem locate_of_hasNul {path : Path} (h : path.hasNul = true) :
    tree.locate path = .error .embeddedNul := if_pos h

/-- A path leads nowhere because of what stands in the tree, or because no name can be like this. -/
theorem error_locate {path : Path} {fault : Fault} (h : tree.locate path = .error fault) :
    (∃ cause, fault = .file cause) ∨ (fault = .embeddedNul ∧ path.hasNul = true) := by
  unfold FileTree.locate at h
  split_ifs at h with hnul hlong
  · cases h
    exact .inr ⟨rfl, hnul⟩
  · cases h
    exact .inl ⟨_, rfl⟩
  · cases hwalk : tree.walk [] (some .directory) path.parts with
    | error cause =>
      rw [hwalk] at h
      cases h
      exact .inl ⟨cause, rfl⟩
    | ok reached =>
      rw [hwalk] at h
      cases h

theorem directoriesStay_put (h : tree.node? location ≠ some .directory) (node : FileNode) :
    DirectoriesStay tree (tree.put location node) := by
  intro other hother
  have hne : other ≠ location := by
    rintro rfl
    exact h hother
  rw [node?_put_of_ne hne]
  exact hother

theorem directoriesStay_remove (h : tree.node? location ≠ some .directory) :
    DirectoriesStay tree (tree.remove location) := by
  intro other hother
  have hne : other ≠ location := by
    rintro rfl
    exact h hother
  rw [node?_remove_of_ne hne]
  exact hother

theorem directoriesStay_move (hlocation : tree.node? location ≠ some .directory)
    (hplace : tree.node? place ≠ some .directory) (node : FileNode) :
    DirectoriesStay tree ((tree.remove location).put place node) := by
  intro other hother
  have hne : other ≠ location ∧ other ≠ place := by
    constructor <;> rintro rfl
    · exact hlocation hother
    · exact hplace hother
  rw [node?_put_of_ne hne.2, node?_remove_of_ne hne.1]
  exact hother

/-- A file that has been put where a path leads is found there. -/
theorem locate_put {path : Path} {found : Option FileNode}
    (h : tree.locate path = .ok (place, found)) (hfound : found ≠ some .directory)
    (data : MsgPack.Bytes) :
    (tree.put place (.file data)).locate path = .ok (place, some (.file data)) := by
  obtain ⟨-, hplace, hnode⟩ := (directoriesStay_refl tree).locate h hfound
  have hstay := directoriesStay_put (hnode ▸ hfound) (.file data)
  obtain ⟨hlocated, -, -⟩ := hstay.locate h hfound
  rw [hlocated, node?_put_self hplace]

end FileTree

/-! ## Actions on files -/

namespace FileAction

open FileTree

variable {tree tree' : FileTree} {path source target : Path} {data : MsgPack.Bytes}

theorem locate_eq_ok {found : Location × Option FileNode} :
    locate path tree = .ok found tree' ↔ tree.locate path = .ok found ∧ tree' = tree := by
  simp only [locate, bind, EStateM.bind, get, getThe, MonadStateOf.get, EStateM.get]
  cases tree.locate path with
  | error fault => simp [throw, throwThe, MonadExceptOf.throw, EStateM.throw]
  | ok reached => simp [pure, EStateM.pure, eq_comm]

theorem locate_error {fault : Fault} (h : tree.locate path = .error fault) :
    locate path tree = .error fault tree := by
  simp only [locate, bind, EStateM.bind, get, getThe, MonadStateOf.get, EStateM.get, h]
  rfl

theorem contents_ok {place : Location} (h : tree.locate path = .ok (place, some (.file data))) :
    contents path tree = .ok data tree := by
  have hlocate := locate_eq_ok.2 ⟨h, rfl⟩
  simp only [contents, bind, EStateM.bind, hlocate]
  rfl

theorem contents_error {fault : Fault} (h : tree.locate path = .error fault) :
    contents path tree = .error fault tree := by
  simp only [contents, bind, EStateM.bind, locate_error h]

/-- The ways in which the content of a path can be asked for. -/
theorem contents_cases (path : Path) (tree : FileTree) :
    (∃ place data, tree.locate path = .ok (place, some (.file data)) ∧
      contents path tree = .ok data tree) ∨
    (∃ cause, contents path tree = .error (.file cause) tree) ∨
    (path.hasNul = true ∧ contents path tree = .error .embeddedNul tree) := by
  cases hlocate : tree.locate path with
  | error fault =>
    have hrefused := contents_error hlocate
    rcases FileTree.error_locate hlocate with ⟨cause, rfl⟩ | ⟨rfl, hnul⟩
    · exact .inr (.inl ⟨cause, hrefused⟩)
    · exact .inr (.inr ⟨hnul, hrefused⟩)
  | ok found =>
    obtain ⟨place, node?⟩ := found
    have hreached := locate_eq_ok.2 ⟨hlocate, rfl⟩
    rcases node? with _ | _ | data
    · refine .inr (.inl ⟨.notFound, ?_⟩)
      simp only [contents, bind, EStateM.bind, hreached]
      rfl
    · refine .inr (.inl ⟨.isADirectory, ?_⟩)
      simp only [contents, bind, EStateM.bind, hreached]
      rfl
    · exact .inl ⟨place, data, rfl, contents_ok hlocate⟩

end FileAction

end KeyedRelations
