import KeyedRelations.Proofs.Files.Paths

/-!
# What actions on files leave behind

Making directories only adds directories, whether it succeeds or fails. Writing, moving and deleting
change the files at the places of their paths, or nothing at all. All of them fail because of what
stands in the tree, or because of a NUL in a path.
-/

namespace KeyedRelations

/-- Whether a fault comes from the tree, or from a NUL in the path. -/
def Fault.OfPath (path : Path) (fault : Fault) : Prop :=
  (∃ cause, fault = .file cause) ∨ (fault = .embeddedNul ∧ path.hasNul = true)

theorem Fault.OfPath.mono {path other : Path} {fault : Fault} (h : fault.OfPath path)
    (hnul : path.hasNul = true → other.hasNul = true) : fault.OfPath other :=
  h.imp_right fun hfault => ⟨hfault.1, hnul hfault.2⟩

namespace FileTree

variable {tree tree' tree'' : FileTree} {location other place : Location} {data : MsgPack.Bytes}

/-- The data of the file at a location. -/
def data? (tree : FileTree) (location : Location) : Option MsgPack.Bytes :=
  match tree.node? location with
  | some (.file data) => some data
  | _ => none

theorem data?_congr (h : tree'.node? location = tree.node? location) :
    tree'.data? location = tree.data? location := by
  unfold data?
  rw [h]

theorem data?_eq_some : tree.data? location = some data ↔ tree.node? location = some (.file data) := by
  unfold data?
  split <;> simp_all

theorem data?_eq_none (h : ∀ data, tree.node? location ≠ some (.file data)) :
    tree.data? location = none := by
  unfold data?
  split
  · rename_i data hfile
    exact absurd hfile (h data)
  · rfl

theorem node?_remove_self (hlocation : location ≠ []) : (tree.remove location).node? location = none := by
  unfold node? remove
  dsimp only
  rw [if_neg hlocation, List.find?_eq_none.2, Option.map_none]
  intro entry hentry
  simpa using (List.mem_filter.1 hentry).2

/-- Whether directories may have been added to a tree and nothing else has changed. -/
structure Grown (tree tree' : FileTree) : Prop where
  directories : DirectoriesStay tree tree'
  data?_eq : ∀ location, tree'.data? location = tree.data? location

theorem grown_refl (tree : FileTree) : Grown tree tree := ⟨directoriesStay_refl tree, fun _ => rfl⟩

theorem Grown.trans (h : Grown tree tree') (h' : Grown tree' tree'') : Grown tree tree'' where
  directories := h.directories.trans h'.directories
  data?_eq location := (h'.data?_eq location).trans (h.data?_eq location)

theorem grown_put_directory (h : tree.node? location = none) :
    Grown tree (tree.put location .directory) where
  directories := directoriesStay_put (by simp [h]) .directory
  data?_eq other := by
    by_cases heq : other = location
    · subst heq
      have hplace : other ≠ [] := by
        rintro rfl
        cases h
      rw [data?_eq_none (by simp [node?_put_self hplace]), data?_eq_none (by simp [h])]
    · exact data?_congr (node?_put_of_ne heq)

end FileTree

namespace FileAction

open FileTree

variable {tree tree' : FileTree} {path source target : Path} {data : MsgPack.Bytes}

/-! ## Making directories -/

/-- Whether an action adds directories at most, and fails for a path's sake. -/
def Grows (path : Path) (action : FileAction Unit) : Prop :=
  ∀ tree, match action tree with
    | .ok _ tree' => Grown tree tree'
    | .error fault tree' => Grown tree tree' ∧ fault.OfPath path

theorem Grows.seq {first second : FileAction Unit} (hfirst : Grows path first)
    (hsecond : Grows path second) : Grows path (do first; second) := by
  intro tree
  have hbetween := hfirst tree
  simp only [bind, EStateM.bind]
  generalize first tree = outcome at hbetween ⊢
  cases outcome with
  | error fault between => exact hbetween
  | ok _ between =>
    have hend := hsecond between
    dsimp only
    generalize second between = outcome at hend ⊢
    cases outcome with
    | ok _ last => exact hbetween.trans hend
    | error fault last => exact ⟨hbetween.trans hend.1, hend.2⟩

/-- What is done about a fault may depend on it, which is one of the path. -/
theorem Grows.tryCatch {action : FileAction Unit} {handle : Fault → FileAction Unit}
    (haction : Grows path action) (hhandle : ∀ fault, fault.OfPath path → Grows path (handle fault)) :
    Grows path (tryCatch action handle) := by
  intro tree
  have hbetween := haction tree
  simp only [MonadExcept.tryCatch, tryCatchThe, MonadExceptOf.tryCatch, EStateM.tryCatch]
  generalize action tree = outcome at hbetween ⊢
  cases outcome with
  | ok _ between => exact hbetween
  | error fault between =>
    have hend := hhandle fault hbetween.2 between
    dsimp only [EStateM.Backtrackable.restore, EStateM.dummyRestore]
    generalize handle fault between = outcome at hend ⊢
    cases outcome with
    | ok _ last => exact hbetween.1.trans hend
    | error fault last => exact ⟨hbetween.1.trans hend.1, hend.2⟩

theorem grows_throw {fault : Fault} (hfault : fault.OfPath path) : Grows path (throw fault) :=
  fun tree => ⟨grown_refl tree, hfault⟩

theorem grows_get {next : FileTree → FileAction Unit} (hnext : ∀ tree, Grows path (next tree)) :
    Grows path (get >>= next) :=
  fun tree => hnext tree tree

theorem grows_makeDirectory (path : Path) : Grows path (makeDirectory path) := by
  intro tree
  cases hlocate : tree.locate path with
  | error fault =>
    simp only [makeDirectory, bind, EStateM.bind, locate_error hlocate]
    exact ⟨grown_refl tree, error_locate hlocate⟩
  | ok found =>
    obtain ⟨location, node?⟩ := found
    have hreached := locate_eq_ok.2 ⟨hlocate, rfl⟩
    simp only [makeDirectory, bind, EStateM.bind, hreached]
    cases node? with
    | some node => exact ⟨grown_refl tree, .inl ⟨_, rfl⟩⟩
    | none =>
      obtain ⟨-, -, hnone⟩ := (directoriesStay_refl tree).locate hlocate (by simp)
      exact grown_put_directory hnone.symm

theorem error_isDirectory {fault : Fault} (h : tree.isDirectory path = .error fault) :
    ∃ cause, fault = .file cause := by
  unfold isDirectory at h
  split at h
  · cases h
  · cases h
    exact ⟨_, rfl⟩
  · cases h

theorem grows_ensureDirectory (path : Path) : Grows path (ensureDirectory path) := by
  apply (grows_makeDirectory path).tryCatch
  intro fault hfault
  rcases hfault with ⟨cause, rfl⟩ | ⟨rfl, hnul⟩
  · cases cause with
    | notFound => exact grows_throw (.inl ⟨_, rfl⟩)
    | _ =>
      apply grows_get
      intro tree
      cases hdirectory : tree.isDirectory path with
      | error other => exact grows_throw (.inl (error_isDirectory hdirectory))
      | ok answer =>
        cases answer with
        | true => exact grown_refl
        | false => exact grows_throw (.inl ⟨_, rfl⟩)
  · exact grows_throw (.inr ⟨rfl, hnul⟩)

theorem Grows.mono {other : Path} {action : FileAction Unit} (haction : Grows path action)
    (hnul : path.hasNul = true → other.hasNul = true) : Grows other action := by
  intro tree
  have houtcome := haction tree
  generalize action tree = outcome at houtcome ⊢
  cases outcome with
  | ok _ tree' => exact houtcome
  | error fault tree' => exact ⟨houtcome.1, houtcome.2.mono hnul⟩

theorem grows_ensureAlong (root : String) (names : List String) :
    Grows ⟨root, names.reverse⟩ (ensureAlong root names) := by
  induction names with
  | nil => exact grows_ensureDirectory ⟨root, []⟩
  | cons name before ih =>
    apply (grows_ensureDirectory _).tryCatch
    intro fault hfault
    have hparents : Grows ⟨root, (name :: before).reverse⟩ (ensureAlong root before) := by
      apply ih.mono
      intro hnul
      unfold Path.hasNul at hnul ⊢
      rw [List.reverse_cons, List.any_append, hnul, Bool.true_or]
    rcases hfault with ⟨cause, rfl⟩ | ⟨rfl, hnul⟩
    · cases cause with
      | notFound => exact hparents.seq (grows_ensureDirectory _)
      | _ => exact grows_throw (.inl ⟨_, rfl⟩)
    · exact grows_throw (.inr ⟨rfl, hnul⟩)

theorem grows_ensureDirectories (path : Path) : Grows path (ensureDirectories path) := by
  have halong := grows_ensureAlong path.root path.parts.reverse
  rw [List.reverse_reverse] at halong
  exact halong

/-! ## Writing, moving and deleting -/

/-- The ways in which a file can be written. -/
theorem write_cases (path : Path) (data : MsgPack.Bytes) (tree : FileTree) :
    (∃ fault, write path data tree = .error fault tree ∧ fault.OfPath path) ∨
    ∃ place found, tree.locate path = .ok (place, found) ∧ found ≠ some .directory ∧
      write path data tree = .ok () (tree.put place (.file data)) := by
  cases hlocate : tree.locate path with
  | error fault =>
    refine .inl ⟨fault, ?_, error_locate hlocate⟩
    simp only [write, bind, EStateM.bind, locate_error hlocate]
  | ok reached =>
    obtain ⟨place, found⟩ := reached
    have hreached := locate_eq_ok.2 ⟨hlocate, rfl⟩
    simp only [write, bind, EStateM.bind, hreached]
    rcases found with _ | _ | old
    · exact .inr ⟨place, none, rfl, by simp, rfl⟩
    · exact .inl ⟨_, rfl, .inl ⟨_, rfl⟩⟩
    · exact .inr ⟨place, some (.file old), rfl, by simp, rfl⟩

/-- The ways in which a file can be moved. -/
theorem move_cases {old : Location} (hsource : tree.locate source = .ok (old, some (.file data)))
    (target : Path) :
    (∃ fault, move source target tree = .error fault tree ∧ fault.OfPath target) ∨
    ∃ place found, tree.locate target = .ok (place, found) ∧ found ≠ some .directory ∧
      move source target tree = .ok () ((tree.remove old).put place (.file data)) := by
  have hstart := locate_eq_ok.2 ⟨hsource, rfl⟩
  cases hlocate : tree.locate target with
  | error fault =>
    refine .inl ⟨fault, ?_, error_locate hlocate⟩
    simp only [move, bind, EStateM.bind, hstart, locate_error hlocate]
  | ok reached =>
    obtain ⟨place, found⟩ := reached
    have hreached := locate_eq_ok.2 ⟨hlocate, rfl⟩
    simp only [move, bind, EStateM.bind, hstart, hreached]
    rcases found with _ | _ | other
    · exact .inr ⟨place, none, rfl, by simp, rfl⟩
    · exact .inl ⟨_, rfl, .inl ⟨_, rfl⟩⟩
    · exact .inr ⟨place, some (.file other), rfl, by simp, rfl⟩

/-- The ways in which a file can be deleted. -/
theorem delete_cases (path : Path) (tree : FileTree) :
    (∃ place data, tree.locate path = .ok (place, some (.file data)) ∧
      delete path tree = .ok () (tree.remove place)) ∨
    ((tree.locate path = .error (.file .notFound) ∨ ∃ place, tree.locate path = .ok (place, none)) ∧
      delete path tree = .ok () tree) ∨
    ((∃ place, tree.locate path = .ok (place, some .directory)) ∧
      delete path tree = .error (.file .isADirectory) tree) ∨
    ∃ fault, tree.locate path = .error fault ∧ fault ≠ .file .notFound ∧
      delete path tree = .error fault tree := by
  unfold delete
  simp only [bind, EStateM.bind, get, getThe, MonadStateOf.get, EStateM.get]
  cases hlocate : tree.locate path with
  | error fault =>
    by_cases hmissing : fault = .file .notFound
    · subst hmissing
      exact .inr (.inl ⟨.inl rfl, rfl⟩)
    · refine .inr (.inr (.inr ⟨fault, rfl, hmissing, ?_⟩))
      cases fault with
      | file cause =>
        cases cause with
        | notFound => exact absurd rfl hmissing
        | _ => rfl
      | _ => rfl
  | ok reached =>
    obtain ⟨place, found⟩ := reached
    rcases found with _ | _ | data
    · exact .inr (.inl ⟨.inr ⟨place, rfl⟩, rfl⟩)
    · exact .inr (.inr (.inl ⟨⟨place, rfl⟩, rfl⟩))
    · exact .inl ⟨place, data, rfl, rfl⟩

end FileAction

end KeyedRelations
