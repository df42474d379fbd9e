import Tenure.Proofs.FileTree.Walk

/-!
# `Tenure.Proofs.FileTree.Sound`: trees that hang together

Below a root that leads to plain names it does not matter what the rest of the tree
looks like. A path of any other form may go up, by `..`, and then it matters that
every directory stands in a directory. A tree is sound if that is so and if its
working directory is there; every operation keeps it so, whatever path it is given
and however far it gets.

* `createDirectories_evolves`, `touch_evolves`, `write_evolves` and
  `rename_evolves`: what an operation does to a sound tree.
* `Evolves.isRoot`: every root stays one.
* `IsSound.isRoot`: in a sound tree the place from which a path is walked is one.
-/

set_option autoImplicit false

namespace Tenure

/-- A path without parts: the root, or the working directory. -/
def Path.origin (absolute : Bool) : String := if absolute then "/" else ""

/-- The path to where paths start is absolute just where they are. -/
@[simp] theorem Path.isAbsolute_origin (absolute : Bool) :
    isAbsolute (origin absolute) = absolute := by
  cases absolute <;> decide

/-- No step leads from where paths start to itself. -/
@[simp] theorem Path.parts_origin (absolute : Bool) : parts (origin absolute) = [] := by
  cases absolute <;> decide

/-- The path to where paths start holds no NUL. -/
theorem Path.clean_origin (absolute : Bool) : '\x00' ∉ (origin absolute).toList := by
  cases absolute <;> decide

namespace FileTree

/-- Every directory stands in a directory, and so does what is done in this tree. -/
structure IsSound (t : FileTree) : Prop where
  working : t.find t.working = some .directory
  parents : ∀ place, t.find place = some .directory → t.find place.dropLast = some .directory

/-- The tree with its two starting directories and nothing else is sound. -/
theorem isSound_empty : FileTree.empty.IsSound := by
  refine ⟨rfl, fun place hdir => ?_⟩
  by_cases hplace : place = []
  · rw [hplace]
    rfl
  · simp [find, empty, hplace] at hdir

/-- The place from which a path is walked. -/
def start (t : FileTree) (absolute : Bool) : List String := if absolute then [] else t.working

variable {t t' t'' : FileTree} {path : String} {place next : List String} {part : String}
  {names : List String}

/-- In a sound tree, paths start in a directory. -/
theorem IsSound.find_start (h : t.IsSound) (absolute : Bool) :
    t.find (t.start absolute) = some .directory := by
  cases absolute with
  | true => rfl
  | false => exact h.working

/-- In a sound tree, the place where paths start serves as a root. -/
theorem IsSound.isRoot (h : t.IsSound) (absolute : Bool) :
    IsRoot t (Path.origin absolute) (t.start absolute) := by
  refine ⟨Path.clean_origin absolute, ?_, h.find_start absolute⟩
  rw [Path.isAbsolute_origin, Path.parts_origin]
  rfl

/-- What an operation does to a tree: directories stay, and a sound tree stays one. -/
structure Evolves (t t' : FileTree) : Prop where
  changes : ∃ directories files, ChangesOnly directories files t t'
  sound : t.IsSound → t'.IsSound

/-- A tree has evolved into itself. -/
theorem Evolves.refl (t : FileTree) : Evolves t t := ⟨⟨[], [], .refl _ _ t⟩, fun h => h⟩

/-- Evolution passes through a third tree. -/
theorem Evolves.trans (h : Evolves t t') (h' : Evolves t' t'') : Evolves t t'' := by
  obtain ⟨directories, files, hchange⟩ := h.changes
  obtain ⟨directories', files', hchange'⟩ := h'.changes
  refine ⟨⟨directories ++ directories', files ++ files', ?_⟩,
    fun hsound => h'.sound (h.sound hsound)⟩
  have hfirst : ChangesOnly (directories ++ directories') (files ++ files') t t' :=
    hchange.mono (fun _ h => List.mem_append_left _ h) fun _ h => List.mem_append_left _ h
  exact hfirst.trans
    (hchange'.mono (fun _ h => List.mem_append_right _ h) fun _ h => List.mem_append_right _ h)

/-- Every root stays one. -/
theorem Evolves.isRoot (h : Evolves t t') {root : String} {top : List String}
    (hroot : IsRoot t root top) : IsRoot t' root top := by
  obtain ⟨directories, files, hchange⟩ := h.changes
  exact hroot.keeps hchange

/-- Changes to files leave a sound tree sound. -/
theorem ChangesOnly.evolves {files : List (List String)} (h : ChangesOnly [] files t t') :
    Evolves t t' := by
  refine ⟨⟨[], files, h⟩, fun hsound => ⟨?_, fun place hdir => ?_⟩⟩
  · rw [h.working]
    exact h.kept _ hsound.working
  · exact h.kept _ (hsound.parents place (h.made place (by simp) hdir))

/-- Paths start at the same place after a change. -/
theorem ChangesOnly.start_eq {directories files : List (List String)}
    (h : ChangesOnly directories files t t') (absolute : Bool) :
    t'.start absolute = t.start absolute := by
  unfold start
  rw [h.working]

/-- A directory is entered, or its parent is. -/
theorem enter_cases (h : t.enter place part = .ok next) :
    next = place.dropLast ∨ next = place ++ [part] := by
  unfold enter at h
  split at h
  · cases h
  · cases h
  · split at h
    · cases h
      exact .inl rfl
    · split at h
      · cases h
      · cases h
        exact .inr rfl

/-- Making a directory evolves the tree. -/
theorem makeDirectory_evolves (h : t.makeDirectory place part = .ok (t', next)) :
    Evolves t t' := by
  obtain ⟨henter, hchange, hthere⟩ := makeDirectory_ok h
  refine ⟨⟨[next], [], hchange⟩, fun hsound => ⟨?_, fun other hdir => ?_⟩⟩
  · rw [hchange.working]
    exact hchange.kept _ hsound.working
  · by_cases hother : other = next
    · -- the parent of a directory was there before, and so was the one that was entered
      subst hother
      have hplace := enter_ok henter
      rcases enter_cases henter with hup | hdown
      · have hnext : t.find other = some .directory := by
          rw [hup]
          exact hsound.parents place hplace
        exact hchange.kept _ (hsound.parents other hnext)
      · rw [hdown, List.dropLast_concat]
        exact hchange.kept _ hplace
    · exact hchange.kept _ (hsound.parents other (hchange.made other (by simpa using hother) hdir))

/-- Making directories down a walk evolves the tree, however far it gets. -/
theorem makeAll_evolves (t : FileTree) (place names : List String) :
    Evolves t (t.makeAll place names).1 := by
  induction names generalizing t place with
  | nil => exact .refl t
  | cons part names ih =>
    simp only [makeAll]
    cases hmake : t.makeDirectory place part with
    | error e => exact .refl t
    | ok made =>
      obtain ⟨t₁, next⟩ := made
      exact (makeDirectory_evolves hmake).trans (ih t₁ next)

/-- Making a way with its dots evolves the tree, however far it gets. -/
theorem makeWay_evolves (t : FileTree) (place names : List String) :
    Evolves t (t.makeWay place names).1 := by
  rcases makeWay_cases t place names with heq | heq <;> rw [heq]
  · exact .refl t
  · exact makeAll_evolves t _ _

/-- Creating the directories of a path evolves the tree, also when it fails half way. -/
theorem createDirectories_evolves (t : FileTree) (path : String) :
    Evolves t (t.createDirectories path).1 := by
  unfold createDirectories
  split
  · exact .refl t
  · exact makeWay_evolves t _ _

/-- The root is a directory, so a place without one is not the root. -/
theorem ne_nil_of_find (h : t.find place ≠ some .directory) : place ≠ [] := by
  intro heq
  rw [heq] at h
  exact h rfl

/-- Opening a file for writing evolves the tree. -/
theorem touch_evolves (h : t.touch path = .ok t') : Evolves t t' := by
  simp only [touch, bind, Except.bind] at h
  split at h
  · cases h
  · rename_i place hresolve
    split at h
    · cases h
    · cases h
      exact .refl t
    · rename_i habsent
      cases h
      have hfile : t.find place ≠ some .directory := by simp [habsent]
      exact (ChangesOnly.puts [] (ne_nil_of_find hfile) hfile).evolves

/-- Writing a file evolves the tree. -/
theorem write_evolves {content : List UInt8} (h : t.write path content = .ok t') :
    Evolves t t' := by
  obtain ⟨place, -, hfile, rfl⟩ := exists_of_write h
  exact (ChangesOnly.puts content (ne_nil_of_find hfile) hfile).evolves

/-- Setting up a file at a path, directories included, evolves the tree. -/
theorem place_evolves (t : FileTree) (path : String) (content : List UInt8) :
    Evolves t (t.place path content) := by
  have hmade := createDirectories_evolves t (Path.parent path)
  unfold FileTree.place
  split
  · rename_i hwrite
    exact hmade.trans (write_evolves hwrite)
  · exact hmade

/-- Renaming a file evolves the tree. -/
theorem rename_evolves {target : String} (h : t.rename path target = .ok t') : Evolves t t' := by
  obtain ⟨content, place, targetPlace, -, hcontent, -, hfile, rfl⟩ := exists_of_rename h
  have herase : ChangesOnly [] [place] t (t.erase place) := .erases hcontent
  have hfile' : (t.erase place).find targetPlace ≠ some .directory := fun hdir =>
    hfile (herase.made targetPlace (by simp) hdir)
  exact herase.evolves.trans (ChangesOnly.puts content (ne_nil_of_find hfile) hfile').evolves

end FileTree

end Tenure
