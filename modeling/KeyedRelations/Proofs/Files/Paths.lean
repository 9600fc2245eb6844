import KeyedRelations.Proofs.Files.Contents

/-!
# Where paths lead

A path that leads anywhere leads to a place that can be read off its names, whatever stands in the
tree. A name that goes only through directories of its own can be read off the place of its path; other
names may share theirs, because empty names and `.` are dropped and `..` leads back.
-/

namespace KeyedRelations

namespace Path

/-- The place after one more name. -/
def descend (place : Location) (name : String) : Location :=
  if name = ".." then place.dropLast else place ++ [name]

/-- The place that a path leads to, if it leads anywhere. -/
def location (p : Path) : Location := p.parts.foldl descend []

theorem foldl_descend {names : List String} (hnames : ".." ∉ names) (place : Location) :
    names.foldl descend place = place ++ names := by
  induction names generalizing place with
  | nil => exact (List.append_nil place).symm
  | cons name names ih =>
    obtain ⟨hname, hrest⟩ := List.ne_and_not_mem_of_not_mem_cons hnames
    rw [List.foldl_cons, ih hrest, descend, if_neg (Ne.symm hname), List.append_assoc]
    rfl

theorem location_concat {p : Path} {front : List String} {last : String}
    (hparts : p.parts = front ++ [last]) (hlast : last ≠ "..") :
    p.location = front.foldl descend [] ++ [last] := by
  unfold location
  rw [hparts, List.foldl_append, List.foldl_cons, List.foldl_nil, descend, if_neg hlast]

end Path

namespace FileTree

variable {tree : FileTree} {location place : Location} {here found : Option FileNode}

theorem place_of_step {name : String} (h : tree.step location name = .ok (place, found)) :
    place = Path.descend location name := by
  unfold Path.descend
  obtain ⟨-, ⟨hup, rfl, -⟩ | ⟨hup, -, rfl, -⟩⟩ := step_cases h
  · rw [if_pos hup]
  · rw [if_neg hup]

theorem place_of_walk {names : List String} (h : tree.walk location here names = .ok (place, found)) :
    place = names.foldl Path.descend location := by
  induction names generalizing location here with
  | nil =>
    cases h
    rfl
  | cons name rest ih =>
    unfold FileTree.walk at h
    cases hstep : tree.step location name with
    | error fault =>
      rw [hstep] at h
      cases h
    | ok reached =>
      obtain ⟨next, between⟩ := reached
      rw [hstep] at h
      rw [List.foldl_cons, ← place_of_step hstep]
      exact ih h

/-- Two paths that lead somewhere lead to the same place just if their names say so. -/
theorem place_of_locate {path : Path} (h : tree.locate path = .ok (place, found)) :
    place = path.location := by
  unfold FileTree.locate at h
  split_ifs at h
  cases hwalk : tree.walk [] (some .directory) path.parts with
  | error fault =>
    rw [hwalk] at h
    cases h
  | ok reached =>
    rw [hwalk] at h
    cases h
    exact place_of_walk hwalk

end FileTree

/-! ## Names between slashes -/

theorem exists_splitOn_append {α : Type} [BEq α] [LawfulBEq α] {mark : α} {suffix : List α}
    (hsuffix : mark ∉ suffix) (cs : List α) :
    ∃ front last, cs.splitOn mark = front ++ [last] ∧
      (cs ++ suffix).splitOn mark = front ++ [last ++ suffix] := by
  induction cs with
  | nil => exact ⟨[], [], rfl, List.splitOn_eq_singleton hsuffix⟩
  | cons c cs ih =>
    obtain ⟨front, last, hcs, happend⟩ := ih
    unfold List.splitOn at hcs happend ⊢
    rw [List.cons_append, List.splitOnP_cons_eq_if_modifyHead,
      List.splitOnP_cons_eq_if_modifyHead, hcs, happend]
    split_ifs
    · exact ⟨[] :: front, last, rfl, rfl⟩
    · cases front with
      | nil => exact ⟨[], c :: last, rfl, rfl⟩
      | cons first front => exact ⟨(c :: first) :: front, last, rfl, rfl⟩

namespace Path

/-- Whether a name on the way to a file says something. -/
def isTelling (name : String) : Bool := name != "" && name != "."

section Names

variable {suffix : String} (hsuffix : '/' ∉ suffix.toList) (hlength : 2 < suffix.length)

include hlength in
theorem append_ne (name : String) {other : String} (hother : other.length ≤ 2) :
    name ++ suffix ≠ other := by
  intro heq
  have hlong : (name ++ suffix).length = name.length + suffix.length :=
    String.length_append name suffix
  rw [heq] at hlong
  omega

include hsuffix hlength

theorem exists_splitNames (name : String) :
    ∃ front last, name.toList.splitOn '/' = front ++ [last] ∧
      splitNames (name ++ suffix) =
        (front.map String.ofList).filter isTelling ++ [String.ofList last ++ suffix] := by
  obtain ⟨front, last, hname, happend⟩ := exists_splitOn_append hsuffix name.toList
  refine ⟨front, last, hname, ?_⟩
  have hlast : String.ofList (last ++ suffix.toList) = String.ofList last ++ suffix := by
    rw [String.ofList_append, String.ofList_toList]
  have htelling : isTelling (String.ofList last ++ suffix) = true := by
    have hempty : String.ofList last ++ suffix ≠ "" := append_ne hlength _ (by decide)
    have hdot : String.ofList last ++ suffix ≠ "." := append_ne hlength _ (by decide)
    simp [isTelling, hempty, hdot]
  have hkept : [String.ofList last ++ suffix].filter isTelling = [String.ofList last ++ suffix] := by
    rw [List.filter_cons_of_pos htelling]
    rfl
  change List.filter isTelling (((name ++ suffix).toList.splitOn '/').map String.ofList) = _
  rw [String.toList_append, happend, List.map_append, List.filter_append, List.map_singleton, hlast,
    hkept]

end Names

/-- Whether a name goes through directories of its own: none of the names between its slashes but
the last is empty, `.` or `..`. -/
def IsPlain (name : String) : Prop :=
  ∀ part ∈ (name.toList.splitOn '/').dropLast, String.ofList part ∉ ["", ".", ".."]

instance (name : String) : Decidable (IsPlain name) := inferInstanceAs (Decidable (∀ _ ∈ _, _))

theorem rootOf_eq_empty {s : String} (h : ∀ cs, s.toList ≠ '/' :: cs) : rootOf s = "" := by
  unfold rootOf
  split
  · rename_i cs hs
    exact absurd hs (h _)
  · rename_i cs hs
    exact absurd hs (h _)
  · rename_i cs hs
    exact absurd hs (h _)
  · rfl

section Plain

variable {suffix : String} (hsuffix : '/' ∉ suffix.toList) (hlength : 2 < suffix.length)
  (directory : Path)

include hsuffix

theorem IsPlain.rootOf {name : String} (h : IsPlain name) : rootOf (name ++ suffix) = "" := by
  apply rootOf_eq_empty
  intro cs hcs
  rw [String.toList_append] at hcs
  cases hname : name.toList with
  | nil =>
    rw [hname, List.nil_append] at hcs
    rw [hcs] at hsuffix
    exact hsuffix List.mem_cons_self
  | cons c rest =>
    rw [hname, List.cons_append] at hcs
    obtain ⟨rfl, -⟩ := List.cons.inj hcs
    -- A slash in front would leave an empty name before it.
    have hsplit : name.toList.splitOn '/' = [] :: rest.splitOn '/' := by
      rw [hname]
      unfold List.splitOn
      rw [List.splitOnP_cons_eq_if_modifyHead, if_pos (by simp)]
    have hrest : rest.splitOn '/' ≠ [] := List.splitOnP_ne_nil _ rest
    have hmem : [] ∈ (name.toList.splitOn '/').dropLast := by
      rw [hsplit, List.dropLast_cons_of_ne_nil hrest]
      exact List.mem_cons_self
    exact h [] hmem (by simp)

include hlength

/-- The place of a plain name is below the directory, name by name. -/
theorem IsPlain.location {name : String} (h : IsPlain name) :
    ∃ front last, name.toList.splitOn '/' = front ++ [last] ∧
      (directory.join (ofString (name ++ suffix))).location =
        directory.location ++ (front.map String.ofList ++ [String.ofList last ++ suffix]) := by
  obtain ⟨front, last, hname, hnames⟩ := exists_splitNames hsuffix hlength name
  have hfront : ∀ part ∈ front, String.ofList part ∉ ["", ".", ".."] := by
    intro part hpart
    apply h
    rw [hname, List.dropLast_concat]
    exact hpart
  have hkept : (front.map String.ofList).filter isTelling = front.map String.ofList := by
    apply List.filter_eq_self.2
    intro part hpart
    obtain ⟨cs, hcs, rfl⟩ := List.mem_map.1 hpart
    have hplain := hfront cs hcs
    simp only [List.mem_cons, List.not_mem_nil, or_false, not_or] at hplain
    simp [isTelling, hplain.1, hplain.2.1]
  have hup : ".." ∉ front.map String.ofList ++ [String.ofList last ++ suffix] := by
    intro hmem
    rcases List.mem_append.1 hmem with hmem | hmem
    · obtain ⟨cs, hcs, heq⟩ := List.mem_map.1 hmem
      exact hfront cs hcs (by simp [heq])
    · exact append_ne hlength (String.ofList last) (by decide) (List.mem_singleton.1 hmem).symm
  refine ⟨front, last, hname, ?_⟩
  rw [hkept] at hnames
  unfold Path.location join ofString
  rw [h.rootOf hsuffix, if_pos rfl, hnames, List.foldl_append, foldl_descend hup]

/-- Different plain names have different places. -/
theorem IsPlain.location_injective {name other : String} (h : IsPlain name) (hother : IsPlain other)
    (heq : (directory.join (ofString (name ++ suffix))).location =
      (directory.join (ofString (other ++ suffix))).location) : name = other := by
  obtain ⟨front, last, hname, hplace⟩ := h.location hsuffix hlength directory
  obtain ⟨front', last', hname', hplace'⟩ := hother.location hsuffix hlength directory
  rw [hplace, hplace', List.append_cancel_left_eq] at heq
  obtain ⟨hfront, hend⟩ := List.append_inj' heq rfl
  have hofList : Function.Injective String.ofList := fun _ _ => String.ofList_inj.1
  have hlast : last = last' := by
    apply hofList
    exact (String.append_left_inj suffix).1 (List.singleton_inj.1 hend)
  have hsplit : name.toList.splitOn '/' = other.toList.splitOn '/' := by
    rw [hname, hname', hlast, List.map_injective_iff.2 hofList hfront]
  have hjoin (cs : List Char) : ['/'].intercalate (cs.splitOn '/') = cs :=
    List.intercalate_splitOn '/'
  apply String.toList_inj.1
  rw [← hjoin name.toList, hsplit, hjoin]

end Plain

end Path

end KeyedRelations
