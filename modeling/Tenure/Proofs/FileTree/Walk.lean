import Tenure.FileTree.Basic
import Tenure.Proofs.FileTree.Path

/-!
# `Tenure.Proofs.FileTree.Walk`: what operations do below a root

A root is a path that leads to a directory. Paths that lead from it to plain names
end at the place of these names, if they end anywhere, and what is done there leaves
every other place alone. `ChangesOnly` says so for a list of places; it also says
that directories stay, so that every root goes on leading where it led.

* `IsRoot.resolve` and `IsRoot.createDirectories`: a path below a root is walked
  from the directory that the root leads to.
* `IsRoot.keeps`: a root stays one.
* `makeAll_name`: how a directory below a root is made.
* `IsRoot.resolve_file`: where a file in it is.
-/

set_option autoImplicit false

namespace Tenure.FileTree

/-! ### Changes -/

/-- A change that keeps all directories, and makes no directory and changes no file
but at these places. -/
structure ChangesOnly (directories files : List (List String)) (t t' : FileTree) : Prop where
  working : t'.working = t.working
  kept : ∀ place, t.find place = some .directory → t'.find place = some .directory
  others : ∀ place, place ∉ directories → place ∉ files → t'.find place = t.find place
  made : ∀ place, place ∉ directories → t'.find place = some .directory →
    t.find place = some .directory
  written : ∀ place bytes, place ∉ files → t'.find place = some (.file bytes) →
    t.find place = some (.file bytes)

namespace ChangesOnly

variable {directories files : List (List String)} {t t' t'' : FileTree}

/-- A tree differs from itself nowhere. -/
theorem refl (directories files : List (List String)) (t : FileTree) :
    ChangesOnly directories files t t :=
  ⟨rfl, fun _ h => h, fun _ _ _ => rfl, fun _ _ h => h, fun _ _ _ h => h⟩

/-- Two changes after one another stay within the places that both were kept to. -/
theorem trans (h : ChangesOnly directories files t t') (h' : ChangesOnly directories files t' t'') :
    ChangesOnly directories files t t'' where
  working := h'.working.trans h.working
  kept place hdir := h'.kept place (h.kept place hdir)
  others place hd hf := (h'.others place hd hf).trans (h.others place hd hf)
  made place hd hdir := h.made place hd (h'.made place hd hdir)
  written place bytes hf hfile := h.written place bytes hf (h'.written place bytes hf hfile)

/-- A change that is kept to some places is kept to any more. -/
theorem mono (h : ChangesOnly directories files t t') {directories' files' : List (List String)}
    (hd : ∀ place ∈ directories, place ∈ directories') (hf : ∀ place ∈ files, place ∈ files') :
    ChangesOnly directories' files' t t' where
  working := h.working
  kept := h.kept
  others place hnd hnf :=
    h.others place (fun hin => hnd (hd place hin)) fun hin => hnf (hf place hin)
  made place hnd := h.made place fun hin => hnd (hd place hin)
  written place bytes hnf := h.written place bytes fun hin => hnf (hf place hin)

/-- A directory is made where there is nothing. -/
theorem makes {place : List String} (hne : place ≠ []) (habsent : t.find place = none) :
    ChangesOnly [place] [] t (t.put place .directory) where
  working := rfl
  kept other hdir := by
    have hother : other ≠ place := fun heq => by simp [heq, habsent] at hdir
    rw [t.find_put_other place other _ hother]
    exact hdir
  others other hd _ := t.find_put_other place other _ (by simpa using hd)
  made other hd hdir := by rwa [t.find_put_other place other _ (by simpa using hd)] at hdir
  written other bytes _ hfile := by
    by_cases heq : other = place
    · rw [heq, t.find_put_self place _ hne] at hfile
      cases hfile
    · rwa [t.find_put_other place other _ heq] at hfile

/-- A file is put where there is no directory. -/
theorem puts {place : List String} (content : List UInt8) (hne : place ≠ [])
    (hfile : t.find place ≠ some .directory) :
    ChangesOnly [] [place] t (t.put place (.file content)) where
  working := rfl
  kept other hdir := by
    have hother : other ≠ place := fun heq => hfile (heq ▸ hdir)
    rw [t.find_put_other place other _ hother]
    exact hdir
  others other _ hf := t.find_put_other place other _ (by simpa using hf)
  made other _ hdir := by
    by_cases heq : other = place
    · rw [heq, t.find_put_self place _ hne] at hdir
      cases hdir
    · rwa [t.find_put_other place other _ heq] at hdir
  written other bytes hf hsame := by
    rwa [t.find_put_other place other _ (by simpa using hf)] at hsame

/-- A file is taken away. -/
theorem erases {place : List String} {content : List UInt8}
    (hfile : t.find place = some (.file content)) : ChangesOnly [] [place] t (t.erase place) where
  working := rfl
  kept other hdir := by
    have hother : other ≠ place := fun heq => by simp [heq, hfile] at hdir
    rw [t.find_erase_other place other hother]
    exact hdir
  others other _ hf := t.find_erase_other place other (by simpa using hf)
  made other _ hdir := by
    have hne : place ≠ [] := fun heq => by simp [heq, find] at hfile
    have hother : other ≠ place := fun heq => by simp [heq, t.find_erase_self place hne] at hdir
    rwa [t.find_erase_other place other hother] at hdir
  written other bytes hf hsame := by
    rwa [t.find_erase_other place other (by simpa using hf)] at hsame

end ChangesOnly

/-! ### Walking -/

section

variable {t : FileTree} {place next : List String} {part : String} {names rest : List String}

/-- Only a directory is entered. -/
theorem enter_ok (h : t.enter place part = .ok next) : t.find place = some .directory := by
  unfold enter at h
  split at h
  · cases h
  · cases h
  · assumption

/-- A name in a directory is entered, if it is not too long. -/
theorem enter_plain (hdir : t.find place = some .directory) (hname : part ≠ "..") :
    t.enter place part
      = if nameLimit < part.utf8ByteSize then .error .nameTooLong else .ok (place ++ [part]) := by
  simp only [enter, hdir, if_neg hname]

/-- Which place is entered is decided by the names alone, and by the tree only whether it
is. -/
theorem enter_unique {t' : FileTree} {next' : List String} (h : t.enter place part = .ok next)
    (h' : t'.enter place part = .ok next') : next = next' := by
  have hdir := enter_ok h
  have hdir' := enter_ok h'
  simp only [enter, hdir] at h
  simp only [enter, hdir'] at h'
  exact Except.ok.inj (h.symm.trans h')

/-- A walk of two stretches is the second from where the first arrived. -/
theorem walk_append (h : t.walk place names = .ok next) :
    t.walk place (names ++ rest) = t.walk next rest := by
  induction names generalizing place with
  | nil =>
    cases h
    rfl
  | cons part names ih =>
    simp only [walk, List.cons_append] at h ⊢
    split at h
    · exact ih h
    · cases h

/-- A walk and one more step. -/
theorem walk_concat_eq (t : FileTree) (place names : List String) (part : String) :
    t.walk place (names ++ [part]) = match t.walk place names with
      | .ok dir => t.enter dir part
      | .error e => .error e := by
  induction names generalizing place with
  | nil =>
    simp only [walk, List.nil_append]
    cases t.enter place part <;> rfl
  | cons other names ih =>
    simp only [walk, List.cons_append]
    cases t.enter place other with
    | error e => rfl
    | ok next => exact ih next

/-- The last step of a walk is one into a directory. -/
theorem walk_concat (h : t.walk place (names ++ [part]) = .ok next) :
    ∃ dir, t.walk place names = .ok dir ∧ t.enter dir part = .ok next := by
  rw [walk_concat_eq] at h
  split at h
  · rename_i dir hwalk
    exact ⟨dir, hwalk, h⟩
  · cases h

/-- No walk in such a tree goes from link to link. -/
theorem walk_ne_tooManyLinks : t.walk place names ≠ .error .tooManyLinks := by
  induction names generalizing place with
  | nil => nofun
  | cons part names ih =>
    simp only [walk, enter]
    intro h
    split at h
    · exact ih h
    · rename_i henter
      cases h
      split at henter
      · cases henter
      · cases henter
      · split at henter
        · cases henter
        · split at henter <;> cases henter

/-- A walk goes the same way as long as directories stay. -/
theorem walk_keeps {t' : FileTree}
    (hkeeps : ∀ place, t.find place = some .directory → t'.find place = some .directory)
    (h : t.walk place names = .ok next) : t'.walk place names = .ok next := by
  induction names generalizing place with
  | nil => exact h
  | cons part names ih =>
    simp only [walk] at h ⊢
    split at h
    · rename_i middle henter
      have hsame : t'.enter place part = t.enter place part := by
        have hdir := enter_ok henter
        simp only [enter, hdir, hkeeps place hdir]
      rw [hsame, henter]
      exact ih h
    · cases h

/-- A walk that ends at a directory starts from one. -/
theorem find_of_walk (h : t.walk place names = .ok next) (hdir : t.find next = some .directory) :
    t.find place = some .directory := by
  cases names with
  | nil =>
    cases h
    exact hdir
  | cons part names =>
    simp only [walk] at h
    split at h
    · rename_i henter
      exact enter_ok henter
    · cases h

/-- Directories that are there already are not made. -/
theorem makeAll_append (h : t.walk place names = .ok next)
    (hdir : t.find next = some .directory) :
    t.makeAll place (names ++ rest) = t.makeAll next rest := by
  induction names generalizing place with
  | nil =>
    cases h
    rfl
  | cons part names ih =>
    simp only [walk] at h
    split at h
    · rename_i middle henter
      have hmiddle := find_of_walk h hdir
      have hmake : t.makeDirectory place part = .ok (t, middle) := by
        simp only [makeDirectory, henter, bind, Except.bind, hmiddle]
        rfl
      simp only [List.cons_append, makeAll, hmake]
      exact ih h
    · cases h

/-- A way is made, or it leads through a file. -/
theorem makeWay_cases (t : FileTree) (place names : List String) :
    t.makeWay place names = (t, .error .notDirectory)
      ∨ t.makeWay place names = t.makeAll place names := by
  unfold makeWay
  split
  · exact .inl rfl
  · exact .inr rfl

/-- The way to a directory is made by making its directories. -/
theorem makeAll_of_makeWay {t' : FileTree} (h : t.makeWay place names = (t', .ok ())) :
    t.makeAll place names = (t', .ok ()) := by
  rcases makeWay_cases t place names with heq | heq <;> rw [heq] at h
  · cases h
  · exact h

/-- A way that can be walked does not lead through a file. -/
theorem makeWay_of_walk (h : t.walk place names = .ok next) :
    t.makeWay place names = t.makeAll place names := by
  unfold makeWay
  rw [h]

end

/-! ### Roots -/

/-- A path that leads to a directory. -/
structure IsRoot (t : FileTree) (root : String) (top : List String) : Prop where
  clean : '\x00' ∉ root.toList
  leads : t.walk (if Path.isAbsolute root then [] else t.working) (Path.parts root) = .ok top
  directory : t.find top = some .directory

variable {t t' : FileTree} {root path : String} {top place : List String} {names : List String}

/-- A root stays one when nothing but files is replaced. -/
theorem IsRoot.keeps (h : IsRoot t root top) {directories files : List (List String)}
    (hchange : ChangesOnly directories files t t') : IsRoot t' root top := by
  refine ⟨h.clean, ?_, hchange.kept top h.directory⟩
  rw [hchange.working]
  exact walk_keeps hchange.kept h.leads

/-- A path below a root is walked from where the root leads. -/
theorem IsRoot.resolve (h : IsRoot t root top) (hpath : Path.Below root names path) :
    t.resolve path = t.walk top names := by
  unfold FileTree.resolve
  rw [if_neg (by simp [hpath.isEmpty]), if_neg (by simpa using hpath.clean), hpath.absolute,
    hpath.parts, walk_append h.leads]
  cases t.walk top names with
  | error e => rfl
  | ok place =>
    simp only [hpath.file]
    split <;> rfl

/-- A directory below a root is made in the directory that the root leads to. -/
theorem IsRoot.createDirectories (h : IsRoot t root top) {space : String}
    (hpath : Path.Below root [space] path) (hspace : space ≠ "..") :
    t.createDirectories path = t.makeAll top [space] := by
  unfold FileTree.createDirectories
  rw [if_neg (by simpa using hpath.clean), hpath.absolute, hpath.parts, makeWay,
    walk_append h.leads, makeAll_append h.leads h.directory]
  -- no file stands between the root and its directories
  simp only [walk, enter_plain h.directory hspace]
  by_cases hlong : nameLimit < space.utf8ByteSize
  · simp only [if_pos hlong]
  · simp only [if_neg hlong]

/-- The directory that is made, or is there already, is the one that is entered. -/
theorem makeDirectory_ok {part : String} {next : List String}
    (h : t.makeDirectory place part = .ok (t', next)) :
    t.enter place part = .ok next ∧ ChangesOnly [next] [] t t'
      ∧ t'.find next = some .directory := by
  cases henter : t.enter place part with
  | error e => simp [makeDirectory, henter, bind, Except.bind] at h
  | ok entered =>
    -- nothing there: the directory is made; a directory there is as good
    cases hfind : t.find entered with
    | none =>
      have hne : entered ≠ [] := fun heq => by simp [heq, find] at hfind
      simp only [makeDirectory, henter, bind, Except.bind, hfind, pure, Except.pure,
        Except.ok.injEq, Prod.mk.injEq] at h
      obtain ⟨rfl, rfl⟩ := h
      exact ⟨rfl, .makes hne hfind, t.find_put_self _ _ hne⟩
    | some node =>
      cases node with
      | file bytes =>
        simp [makeDirectory, henter, bind, Except.bind, hfind, throw, throwThe,
          MonadExceptOf.throw] at h
      | directory =>
        simp only [makeDirectory, henter, bind, Except.bind, hfind, pure, Except.pure,
          Except.ok.injEq, Prod.mk.injEq] at h
        obtain ⟨rfl, rfl⟩ := h
        exact ⟨rfl, .refl _ _ t, hfind⟩

/-- A directory is not made when it cannot be entered, or is a file. -/
theorem makeDirectory_error {part : String} {e : FileError}
    (h : t.makeDirectory place part = .error e) :
    t.enter place part = .error e
      ∨ ∃ next bytes, t.enter place part = .ok next ∧ t.find next = some (.file bytes) := by
  cases henter : t.enter place part with
  | error e' =>
    simp only [makeDirectory, henter, bind, Except.bind, Except.error.injEq] at h
    exact .inl (h ▸ rfl)
  | ok entered =>
    cases hfind : t.find entered with
    | none => simp [makeDirectory, henter, bind, Except.bind, hfind, pure, Except.pure] at h
    | some node =>
      cases node with
      | file bytes => exact .inr ⟨entered, bytes, rfl, hfind⟩
      | directory => simp [makeDirectory, henter, bind, Except.bind, hfind, pure, Except.pure] at h

/-- A path whose directories were all made leads to a directory. -/
theorem makeAll_ok (h : t.makeAll place names = (t', .ok ()))
    (hdir : t.find place = some .directory) :
    ∃ top, t'.walk place names = .ok top ∧ t'.find top = some .directory
      ∧ ∃ directories, ChangesOnly directories [] t t' := by
  induction names generalizing t place with
  | nil =>
    cases h
    exact ⟨place, rfl, hdir, [], .refl _ _ _⟩
  | cons part names ih =>
    simp only [makeAll] at h
    split at h
    · cases h
    · rename_i t₁ next hmake
      obtain ⟨henter, hchange₁, hnext⟩ := makeDirectory_ok hmake
      -- the way made first is still there when the rest of it has been made
      obtain ⟨top, hwalk, htop, directories, hchange₂⟩ := ih h hnext
      have hsame : t'.enter place part = t.enter place part := by
        simp only [enter, hdir, hchange₂.kept _ (hchange₁.kept _ hdir)]
      refine ⟨top, ?_, htop, next :: directories, ?_⟩
      · simp only [walk, hsame, henter, hwalk]
      · exact (hchange₁.mono (by simp) (by simp)).trans
          (hchange₂.mono (fun p hp => List.mem_cons_of_mem _ hp) (by simp))

/-! ### A directory below, and the files in it -/

/-- The directory of a name in a directory is there afterwards, unless the name is too
long or that of a file. -/
theorem makeAll_name {space : String} (hdir : t.find top = some .directory)
    (hspace : Path.IsPlain space) :
    ((∃ e, t.makeAll top [space] = (t, .error e))
        ∧ (nameLimit < space.utf8ByteSize ∨ ∃ bytes, t.find (top ++ [space]) = some (.file bytes)))
      ∨ (space.utf8ByteSize ≤ nameLimit ∧ ∃ t', t.makeAll top [space] = (t', .ok ())
        ∧ ChangesOnly [top ++ [space]] [] t t' ∧ t'.find (top ++ [space]) = some .directory) := by
  have henter := enter_plain hdir hspace.parent
  cases hmake : t.makeDirectory top space with
  | error e =>
    refine .inl ⟨⟨e, by simp only [makeAll, hmake]⟩, ?_⟩
    -- a plain name fails to be made only when it is too long or a file has it
    rcases makeDirectory_error hmake with hlong | ⟨next, bytes, hnext, hfile⟩
    · rw [henter] at hlong
      split at hlong
      · exact .inl ‹_›
      · cases hlong
    · rw [henter] at hnext
      split at hnext
      · cases hnext
      · cases hnext
        exact .inr ⟨bytes, hfile⟩
  | ok made =>
    obtain ⟨t', next⟩ := made
    obtain ⟨hnext, hchange, hthere⟩ := makeDirectory_ok hmake
    rw [henter] at hnext
    split at hnext
    · cases hnext
    · rename_i hsize
      cases hnext
      exact .inr ⟨Nat.not_lt.mp hsize, t', by simp only [makeAll, hmake], hchange, hthere⟩

/-- The way to a file in a directory below a root. -/
theorem IsRoot.resolve_file (h : IsRoot t root top) {space file : String}
    (hpath : Path.Below root [space, file] path) (hspace : Path.IsPlain space)
    (hfile : Path.IsPlain file)
    (hfits : space.utf8ByteSize ≤ nameLimit) (hdir : t.find (top ++ [space]) = some .directory) :
    t.resolve path
      = if nameLimit < file.utf8ByteSize then .error .nameTooLong
        else .ok (top ++ [space, file]) := by
  rw [h.resolve hpath]
  simp only [walk, enter_plain h.directory hspace.parent, if_neg (Nat.not_lt.mpr hfits),
    enter_plain hdir hfile.parent]
  by_cases hsize : nameLimit < file.utf8ByteSize
  · rw [if_pos hsize, if_pos hsize]
  · rw [if_neg hsize, if_neg hsize]
    simp

variable {content : List UInt8}

/-- Reading a path that resolves is looking at its place. -/
theorem read_of_resolve (h : t.resolve path = .ok place) :
    t.read path = match t.find place with
      | none => .error .notFound
      | some .directory => .error .isDirectory
      | some (.file content) => .ok content := by
  simp only [read, lookup, h, bind, Except.bind]
  cases t.find place with
  | none => rfl
  | some node => cases node <;> rfl

/-- A file is written where there is no directory. -/
theorem write_of_resolve (content : List UInt8) (h : t.resolve path = .ok place) (hne : place ≠ [])
    (hfile : t.find place ≠ some .directory) :
    ∃ t', t.write path content = .ok t' ∧ ChangesOnly [] [place] t t'
      ∧ t'.find place = some (.file content) := by
  refine ⟨t.put place (.file content), ?_, .puts content hne hfile, t.find_put_self _ _ hne⟩
  simp only [write, h, bind, Except.bind]
  rfl

/-- A directory cannot be written as a file. -/
theorem write_directory (h : t.resolve path = .ok place) (hdir : t.find place = some .directory) :
    t.write path content = .error .isDirectory := by
  simp only [write, h, bind, Except.bind, hdir]
  rfl

/-- Opening a file for writing fails on a directory alone, and changes at most the file's own
place. -/
theorem touch_cases (h : t.resolve path = .ok place) (hne : place ≠ []) :
    ((∃ e, t.touch path = .error e) ∧ t.find place = some .directory)
      ∨ ∃ t', t.touch path = .ok t' ∧ ChangesOnly [] [place] t t' := by
  simp only [touch, h, bind, Except.bind]
  split
  · rename_i hdir
    exact .inl ⟨⟨_, rfl⟩, hdir⟩
  · exact .inr ⟨t, rfl, .refl _ _ t⟩
  · rename_i habsent
    exact .inr ⟨_, rfl, .puts [] hne (by simp [habsent])⟩

/-- A file takes the place of another one. -/
theorem rename_of_resolve {target : String} {targetPlace : List String}
    (h : t.resolve path = .ok place) (hcontent : t.find place = some (.file content))
    (htarget : t.resolve target = .ok targetPlace) (hne : targetPlace ≠ [])
    (hother : targetPlace ≠ place) (hfile : t.find targetPlace ≠ some .directory) :
    ∃ t', t.rename path target = .ok t' ∧ ChangesOnly [] [place, targetPlace] t t'
      ∧ t'.find targetPlace = some (.file content) := by
  have hread : t.read path = .ok content := by rw [read_of_resolve h, hcontent]
  have herase : ChangesOnly [] [place] t (t.erase place) := .erases hcontent
  have hput : ChangesOnly [] [targetPlace] (t.erase place)
      ((t.erase place).put targetPlace (.file content)) := by
    refine .puts content hne ?_
    rw [herase.others _ (by simp) (by simpa using hother)]
    exact hfile
  refine ⟨_, ?_, (herase.mono (by simp) (by simp)).trans (hput.mono (by simp) (by simp)),
    (t.erase place).find_put_self targetPlace (.file content) hne⟩
  simp only [rename, hread, h, htarget, bind, Except.bind]
  rfl

/-! ### What an operation needs -/

/-- Whatever reads as a file is one, at the place that its path leads to. -/
theorem exists_of_read (h : t.read path = .ok content) :
    ∃ place, t.resolve path = .ok place ∧ t.find place = some (.file content) := by
  cases hresolve : t.resolve path with
  | error e => simp [read, lookup, hresolve, bind, Except.bind] at h
  | ok place =>
    rw [read_of_resolve hresolve] at h
    split at h
    · cases h
    · cases h
    · rename_i hfile
      exact ⟨place, rfl, Except.ok.inj h ▸ hfile⟩

/-- A write that succeeds has put its content at the place that its path leads to. -/
theorem exists_of_write (h : t.write path content = .ok t') :
    ∃ place, t.resolve path = .ok place ∧ t.find place ≠ some .directory
      ∧ t' = t.put place (.file content) := by
  simp only [write, bind, Except.bind] at h
  split at h
  · cases h
  · rename_i place hresolve
    split at h
    · cases h
    · rename_i hfile
      exact ⟨place, hresolve, hfile, (Except.ok.inj h).symm⟩

/-- A rename that succeeds has moved one file's content from the one place to the other. -/
theorem exists_of_rename {target : String} (h : t.rename path target = .ok t') :
    ∃ content place targetPlace, t.resolve path = .ok place
      ∧ t.find place = some (.file content) ∧ t.resolve target = .ok targetPlace
      ∧ t.find targetPlace ≠ some .directory
      ∧ t' = (t.erase place).put targetPlace (.file content) := by
  cases hread : t.read path with
  | error e => simp [rename, hread, bind, Except.bind] at h
  | ok content =>
    obtain ⟨place, hresolve, hfile⟩ := exists_of_read hread
    cases htarget : t.resolve target with
    | error e => simp [rename, hread, hresolve, htarget, bind, Except.bind] at h
    | ok targetPlace =>
      simp only [rename, hread, hresolve, htarget, bind, Except.bind] at h
      split at h
      · cases h
      · rename_i hdir
        exact ⟨content, place, targetPlace, hresolve, hfile, rfl, hdir, (Except.ok.inj h).symm⟩

end Tenure.FileTree
