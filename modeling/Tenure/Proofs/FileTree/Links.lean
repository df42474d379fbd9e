import Tenure.FileTree.Links
import Tenure.Proofs.FileTree.Walk

/-!
# `Tenure.Proofs.FileTree.Links`: where paths lead through links

A path below a root is walked to the directory that the root leads to, through whatever links,
and then one step further. That step is a plain one unless a symbolic link stands where it ends
(`IsRoot.resolve_name`), and a path whose last link is not followed ends there in any case
(`exists_isRoot_of_locate`).

Where a path leads to is decided by the symbolic links. The directories decide only whether it
gets there, so it never leads to two places as long as the links are the same (`SameLinks`),
and goes on leading where it led if the directories stay as well (`KeepsWays`). When directories
are made nothing else changes (`Grows`), and none is made of a path that leads to one. A file
that is no link is written and moved under its own name, and nothing else is (`IsOwn`).

* `walk_append`, `exists_walk_of_append`: a walk is put together and taken apart.
* `SameLinks.walk_unique`, `KeepsWays.walk`: what becomes of it when the tree changes.
* `createDirectories_grows`: what comes of making directories, whether they are all made or not.
* `exists_of_write`, `exists_of_rename`: what an operation does that succeeds.
* `IsOwn.store_eq`: what is written where a file is no link.
* `resolve_ofTree` to `rename_ofTree`: without links all operations are those of the tree.
-/

set_option autoImplicit false

namespace Tenure.LinkedTree

open FileTree (nameLimit enter_ok enter_plain)

variable {l l' l'' : LinkedTree} {left left' : Nat} {place next dir : List String}
  {part target path root file : String} {names rest top : List String}

/-! ### Walks -/

/-- A walk goes through the first parts, and through the others unless it has come to a link. -/
theorem stretch_append (l : LinkedTree) (place names rest : List String) :
    l.stretch place (names ++ rest) = match l.stretch place names with
      | .error e => .error e
      | .ok (dir, none) => l.stretch dir rest
      | .ok (dir, some (target, more)) => .ok (dir, some (target, more ++ rest)) := by
  induction names generalizing place with
  | nil => rfl
  | cons part names ih =>
    simp only [List.cons_append, stretch]
    cases l.tree.enter place part with
    | error e => rfl
    | ok next =>
      cases htarget : l.target? next with
      | none => simpa only [htarget] using ih next
      | some target => simp only [htarget]

/-- A walk goes on from where its first parts lead. -/
theorem walk_append (h : l.walk left place names = .ok (dir, left')) :
    l.walk left place (names ++ rest) = l.walk left' dir rest := by
  -- the induction is on the links: up to the next one the walk is a stretch
  induction left generalizing place names with
  | zero =>
    rw [walk] at h
    rw [walk, stretch_append]
    cases hstretch : l.stretch place names with
    | error e => simp [hstretch] at h
    | ok way =>
      obtain ⟨found, _ | ⟨target, more⟩⟩ := way
      · rw [hstretch] at h
        cases h
        rw [walk]
      · simp [hstretch] at h
  | succ left ih =>
    rw [walk] at h
    rw [walk, stretch_append]
    cases hstretch : l.stretch place names with
    | error e => simp [hstretch] at h
    | ok way =>
      rw [hstretch] at h
      obtain ⟨found, _ | ⟨target, more⟩⟩ := way
      · cases h
        rw [walk]
      · simp only [← List.append_assoc]
        exact ih h

/-- The first parts of a walk lead somewhere. -/
theorem exists_walk_of_append (h : l.walk left place (names ++ rest) = .ok (next, left')) :
    ∃ dir left'', l.walk left place names = .ok (dir, left'')
      ∧ l.walk left'' dir rest = .ok (next, left') := by
  -- on the links that may still be followed: the walk stops at the first one in its way
  induction left generalizing place names with
  | zero =>
    rw [walk, stretch_append] at h
    cases hstretch : l.stretch place names with
    | error e => simp [hstretch] at h
    | ok way =>
      obtain ⟨dir, _ | ⟨target, more⟩⟩ := way
      · refine ⟨dir, 0, by rw [walk, hstretch], ?_⟩
        rw [hstretch] at h
        rw [walk]
        exact h
      · simp [hstretch] at h
  | succ left ih =>
    rw [walk, stretch_append] at h
    cases hstretch : l.stretch place names with
    | error e => simp [hstretch] at h
    | ok way =>
      obtain ⟨dir, _ | ⟨target, more⟩⟩ := way
      · refine ⟨dir, left + 1, by rw [walk, hstretch], ?_⟩
        rw [hstretch] at h
        rw [walk]
        exact h
      · -- the names of the link come before those that were left, and the walk goes on with one
        -- link fewer
        simp only [hstretch, ← List.append_assoc] at h
        obtain ⟨dir', left'', hwalk, hrest⟩ := ih h
        exact ⟨dir', left'', by rw [walk, hstretch]; exact hwalk, hrest⟩

/-- The last step of a walk is a plain one where no symbolic link stands at its end. -/
theorem walk_plain (hdir : l.tree.find dir = some .directory) (hfile : file ≠ "..")
    (hfits : file.utf8ByteSize ≤ nameLimit) (hlink : l.target? (dir ++ [file]) = none) :
    l.walk left dir [file] = .ok (dir ++ [file], left) := by
  have henter : l.tree.enter dir file = .ok (dir ++ [file]) := by
    rw [enter_plain hdir hfile, if_neg (Nat.not_lt.mpr hfits)]
  rw [walk]
  simp only [stretch, henter, hlink]

/-- A walk by one plain name starts in a directory. Without a symbolic link it ends at the
place of this name. -/
theorem of_walk_plain (h : l.walk left dir [file] = .ok (next, left')) (hfile : file ≠ "..") :
    l.tree.find dir = some .directory ∧ file.utf8ByteSize ≤ nameLimit
      ∧ (l.target? (dir ++ [file]) = none → next = dir ++ [file]) := by
  cases henter : l.tree.enter dir file with
  | error e =>
    unfold walk at h
    simp [stretch, henter] at h
  | ok entered =>
    have hdir := enter_ok henter
    rw [enter_plain hdir hfile] at henter
    split at henter
    · cases henter
    · rename_i hlong
      cases henter
      refine ⟨hdir, Nat.not_lt.mp hlong, fun hlink => ?_⟩
      rw [walk_plain hdir hfile (Nat.not_lt.mp hlong) hlink] at h
      cases h
      rfl

/-! ### Changes that leave ways alone -/

/-- Paths start at the same place, and symbolic links are the same. -/
structure SameLinks (l l' : LinkedTree) : Prop where
  working : l'.tree.working = l.tree.working
  links : ∀ place, l'.target? place = l.target? place

/-- Directories stay, and symbolic links are the same. -/
structure KeepsWays (l l' : LinkedTree) : Prop extends SameLinks l l' where
  kept : ∀ place, l.tree.find place = some .directory → l'.tree.find place = some .directory

/-- There are more directories, where nothing was, and nothing else changes. -/
structure Grows (l l' : LinkedTree) : Prop where
  working : l'.tree.working = l.tree.working
  symbolic : l'.symbolic = l.symbolic
  hard : l'.hard = l.hard
  finds : ∀ place, l'.tree.find place = l.tree.find place
    ∨ (l.tree.find place = none ∧ l'.tree.find place = some .directory)

namespace SameLinks

/-- Every tree has its own links. -/
theorem refl (l : LinkedTree) : SameLinks l l := ⟨rfl, fun _ => rfl⟩

/-- Having the same links does not depend on which tree is named first. -/
theorem symm (h : SameLinks l l') : SameLinks l' l :=
  ⟨h.working.symm, fun place => (h.links place).symm⟩

/-- Having the same links passes through a third tree. -/
theorem trans (h : SameLinks l l') (h' : SameLinks l' l'') : SameLinks l l'' :=
  ⟨h'.working.trans h.working, fun place => (h'.links place).trans (h.links place)⟩

/-- Paths start at the same place. -/
theorem start_eq (h : SameLinks l l') (path : String) : l'.start path = l.start path := by
  unfold start
  rw [h.working]

/-- Up to the next symbolic link two walks that both get there are one. -/
theorem stretch_unique {way way' : List String × Option (String × List String)}
    (h : SameLinks l l') (hway : l.stretch place names = .ok way)
    (hway' : l'.stretch place names = .ok way') : way = way' := by
  -- step by step: entering gives the same place in both trees, and the same link is there or none
  induction names generalizing place with
  | nil => exact Except.ok.inj (hway.symm.trans hway')
  | cons part names ih =>
    simp only [LinkedTree.stretch] at hway hway'
    cases henter : l.tree.enter place part with
    | error e => simp [henter] at hway
    | ok next =>
      cases henter' : l'.tree.enter place part with
      | error e => simp [henter'] at hway'
      | ok next' =>
        obtain rfl := FileTree.enter_unique henter henter'
        simp only [henter] at hway
        simp only [henter', h.links] at hway'
        cases htarget : l.target? next with
        | none =>
          simp only [htarget] at hway hway'
          exact ih hway hway'
        | some target =>
          simp only [htarget] at hway hway'
          exact Except.ok.inj (hway.symm.trans hway')

/-- Two walks that both get to an end get to the same one. -/
theorem walk_unique {way way' : List String × Nat} (h : SameLinks l l')
    (hwalk : l.walk left place names = .ok way) (hwalk' : l'.walk left place names = .ok way') :
    way = way' := by
  -- as far as the next link the two walks are the same, and then there is one link less to go
  induction left generalizing place names with
  | zero =>
    unfold LinkedTree.walk at hwalk hwalk'
    cases hstretch : l.stretch place names with
    | error e => simp [hstretch] at hwalk
    | ok found =>
      cases hstretch' : l'.stretch place names with
      | error e => simp [hstretch'] at hwalk'
      | ok found' =>
        obtain rfl := h.stretch_unique hstretch hstretch'
        simp only [hstretch] at hwalk
        simp only [hstretch'] at hwalk'
        exact Except.ok.inj (hwalk.symm.trans hwalk')
  | succ left ih =>
    unfold LinkedTree.walk at hwalk hwalk'
    cases hstretch : l.stretch place names with
    | error e => simp [hstretch] at hwalk
    | ok found =>
      cases hstretch' : l'.stretch place names with
      | error e => simp [hstretch'] at hwalk'
      | ok found' =>
        obtain rfl := h.stretch_unique hstretch hstretch'
        simp only [hstretch] at hwalk
        simp only [hstretch'] at hwalk'
        obtain ⟨dir, _ | ⟨target, rest⟩⟩ := found
        · exact Except.ok.inj (hwalk.symm.trans hwalk')
        · exact ih hwalk hwalk'

end SameLinks

namespace KeepsWays

/-- A change that is none keeps all ways. -/
theorem refl (l : LinkedTree) : KeepsWays l l := ⟨.refl l, fun _ h => h⟩

/-- Two changes that keep all ways keep them one after the other. -/
theorem trans (h : KeepsWays l l') (h' : KeepsWays l' l'') : KeepsWays l l'' where
  toSameLinks := h.toSameLinks.trans h'.toSameLinks
  kept place hdir := h'.kept place (h.kept place hdir)

/-- Up to the next symbolic link a walk goes as it went. -/
theorem stretch {way : List String × Option (String × List String)} (h : KeepsWays l l')
    (hstretch : l.stretch place names = .ok way) : l'.stretch place names = .ok way := by
  induction names generalizing place with
  | nil => exact hstretch
  | cons part names ih =>
    simp only [LinkedTree.stretch] at hstretch ⊢
    cases henter : l.tree.enter place part with
    | error e => simp [henter] at hstretch
    | ok next =>
      -- what is entered is a directory still, and so it is entered in the same way
      have hdir := enter_ok henter
      have hsame : l'.tree.enter place part = .ok next := by
        rw [← henter]
        simp only [FileTree.enter, hdir, h.kept place hdir]
      simp only [henter, hsame, h.links] at hstretch ⊢
      cases htarget : l.target? next with
      | none =>
        simp only [htarget] at hstretch
        exact ih hstretch
      | some target => simpa only [htarget] using hstretch

/-- A way that leads somewhere goes on leading there. -/
theorem walk {way : List String × Nat} (h : KeepsWays l l')
    (hwalk : l.walk left place names = .ok way) : l'.walk left place names = .ok way := by
  induction left generalizing place names with
  | zero =>
    unfold LinkedTree.walk at hwalk ⊢
    cases hstretch : l.stretch place names with
    | error e => simp [hstretch] at hwalk
    | ok found => simpa only [hstretch, h.stretch hstretch] using hwalk
  | succ left ih =>
    unfold LinkedTree.walk at hwalk ⊢
    cases hstretch : l.stretch place names with
    | error e => simp [hstretch] at hwalk
    | ok found =>
      obtain ⟨dir, _ | ⟨target, rest⟩⟩ := found
      · simpa only [hstretch, h.stretch hstretch] using hwalk
      · simp only [hstretch, h.stretch hstretch] at hwalk ⊢
        exact ih hwalk

end KeepsWays

namespace Grows

/-- Nothing has to change. -/
theorem refl (l : LinkedTree) : Grows l l := ⟨rfl, rfl, rfl, fun _ => .inl rfl⟩

/-- Directories may be made one after another. -/
theorem trans (h : Grows l l') (h' : Grows l' l'') : Grows l l'' where
  working := h'.working.trans h.working
  symbolic := h'.symbolic.trans h.symbolic
  hard := h'.hard.trans h.hard
  finds place := by
    rcases h.finds place with hsame | ⟨habsent, hmade⟩
    · rw [← hsame]
      exact h'.finds place
    · refine .inr ⟨habsent, ?_⟩
      rcases h'.finds place with hsame | ⟨habsent', -⟩
      · exact hsame.trans hmade
      · rw [hmade] at habsent'
        cases habsent'

/-- The symbolic links are the same. -/
theorem target?_eq (h : Grows l l') (place : List String) : l'.target? place = l.target? place := by
  unfold target?
  rw [h.symbolic]

/-- New directories leave all ways alone. -/
theorem keepsWays (h : Grows l l') : KeepsWays l l' where
  toSameLinks := ⟨h.working, h.target?_eq⟩
  kept place hdir := by
    rcases h.finds place with hsame | ⟨habsent, -⟩
    · exact hsame.trans hdir
    · rw [hdir] at habsent
      cases habsent

/-- Every file is what it was, and there are no new ones. -/
theorem file_iff (h : Grows l l') (bytes : List UInt8) :
    l'.tree.find place = some (.file bytes) ↔ l.tree.find place = some (.file bytes) := by
  rcases h.finds place with hsame | ⟨habsent, hmade⟩
  · rw [hsame]
  · rw [habsent, hmade]
    exact iff_of_false nofun nofun

end Grows

/-! ### Making directories -/

/-- By making a directory at most this one is new. -/
theorem makeDirectory_grows (h : l.makeDirectory left place part = .ok (l', next, left')) :
    Grows l l' := by
  simp only [makeDirectory, bind, Except.bind] at h
  split at h
  · cases h
  · split at h
    · cases hmake : l.tree.makeDirectory place part with
      | error e => simp [hmake] at h
      | ok made =>
        obtain ⟨tree, entered⟩ := made
        simp only [hmake, pure, Except.pure, Except.ok.injEq, Prod.mk.injEq] at h
        obtain ⟨rfl, rfl, rfl⟩ := h
        obtain ⟨-, hchange, hthere⟩ := FileTree.makeDirectory_ok hmake
        refine ⟨hchange.working, rfl, rfl, fun other => ?_⟩
        by_cases hother : other = entered
        · -- where a directory was made there was one, or nothing
          subst hother
          cases hfind : l.tree.find other with
          | none => exact .inr ⟨rfl, hthere⟩
          | some node =>
            cases node with
            | directory => exact .inl hthere
            | file bytes =>
              have henter := (FileTree.makeDirectory_ok hmake).1
              simp [FileTree.makeDirectory, henter, bind, Except.bind, hfind, throw, throwThe,
                MonadExceptOf.throw] at hmake
        · exact .inl (hchange.others other (by simpa using hother) (by simp))
    · split at h
      · cases h
      · split at h
        · cases h
          exact .refl l
        · cases h

/-- By making directories, whether or not all of them can be made, only directories are new. -/
theorem makeAll_grows (l : LinkedTree) (left : Nat) (place names : List String) :
    Grows l (l.makeAll left place names).1 := by
  induction names generalizing l left place with
  | nil => exact .refl l
  | cons part names ih =>
    simp only [makeAll]
    cases hmake : l.makeDirectory left place part with
    | error e => exact .refl l
    | ok made => exact (makeDirectory_grows hmake).trans (ih made.1 made.2.2 made.2.1)

/-- Nothing is made, or directories are. -/
theorem makeWay_cases (l : LinkedTree) (place names : List String) :
    (∃ e, l.makeWay place names = (l, .error e))
      ∨ l.makeWay place names = l.makeAll linkLimit place names := by
  unfold makeWay
  split
  · exact .inl ⟨_, rfl⟩
  · exact .inl ⟨_, rfl⟩
  · exact .inr rfl

/-- By making the directories of a path only directories are new. -/
theorem createDirectories_grows (l : LinkedTree) (path : String) :
    Grows l (l.createDirectories path).1 := by
  unfold createDirectories
  split
  · exact .refl l
  · rcases l.makeWay_cases (l.start path) (Path.parts path) with ⟨e, heq⟩ | heq <;> rw [heq]
    · exact .refl l
    · exact makeAll_grows l _ _ _

/-- A walk that ends at a directory starts from one. -/
theorem find_of_walk (h : l.walk left place names = .ok (dir, left'))
    (hdir : l.tree.find dir = some .directory) : l.tree.find place = some .directory := by
  cases names with
  | nil =>
    unfold walk at h
    cases h
    exact hdir
  | cons part names =>
    cases henter : l.tree.enter place part with
    | error e =>
      unfold walk at h
      simp [stretch, henter] at h
    | ok next => exact enter_ok henter

/-- A directory that is there already, or that a symbolic link leads to, is not made. -/
theorem makeDirectory_of_walk (h : l.walk left place [part] = .ok (dir, left'))
    (hdir : l.tree.find dir = some .directory) :
    l.makeDirectory left place part = .ok (l, dir, left') := by
  cases henter : l.tree.enter place part with
  | error e =>
    unfold walk at h
    simp [stretch, henter] at h
  | ok next =>
    simp only [makeDirectory, henter, bind, Except.bind]
    cases htarget : l.target? next with
    | none =>
      unfold walk at h
      simp only [stretch, henter, htarget] at h
      cases h
      simp only [FileTree.makeDirectory, henter, hdir, bind, Except.bind, pure, Except.pure]
    | some target => simp only [h, hdir, if_pos, pure, Except.pure]

/-- Where all directories of a path are there already, none is made. -/
theorem makeAll_of_walk (h : l.walk left place names = .ok (dir, left'))
    (hdir : l.tree.find dir = some .directory) : l.makeAll left place names = (l, .ok ()) := by
  induction names generalizing left place with
  | nil => rfl
  | cons part names ih =>
    rw [← List.singleton_append] at h
    obtain ⟨next, left'', hfirst, hrest⟩ := exists_walk_of_append h
    simp only [makeAll, makeDirectory_of_walk hfirst (find_of_walk hrest hdir)]
    exact ih hrest

/-! ### Roots -/

/-- A path that leads to a directory. -/
structure IsRoot (l : LinkedTree) (root : String) (top : List String) : Prop where
  clean : '\x00' ∉ root.toList
  leads : ∃ left, l.walk linkLimit (l.start root) (Path.parts root) = .ok (top, left)
  directory : l.tree.find top = some .directory

namespace IsRoot

/-- A path leads to the same directory as long as symbolic links are the same. -/
theorem unique_of_sameLinks {top' : List String} (h : IsRoot l root top)
    (hlinks : SameLinks l l') (h' : IsRoot l' root top') : top = top' := by
  obtain ⟨left, hleads⟩ := h.leads
  obtain ⟨left', hleads'⟩ := h'.leads
  rw [hlinks.start_eq] at hleads'
  exact congrArg Prod.fst (hlinks.walk_unique hleads hleads')

/-- The directories on the way to a root are there, also those of its first parts. -/
theorem makeAll_take (h : IsRoot l root top) (count : Nat) :
    l.makeAll linkLimit (l.start root) ((Path.parts root).take count) = (l, .ok ()) := by
  obtain ⟨left, hleads⟩ := h.leads
  rw [← List.take_append_drop count (Path.parts root)] at hleads
  obtain ⟨dir, left', hfirst, hrest⟩ := exists_walk_of_append hleads
  exact makeAll_of_walk hfirst (find_of_walk hrest h.directory)

/-- A root stays one when all ways are kept. -/
theorem keeps (h : IsRoot l root top) (hkeeps : KeepsWays l l') : IsRoot l' root top := by
  obtain ⟨left, hleads⟩ := h.leads
  refine ⟨h.clean, ⟨left, ?_⟩, hkeeps.kept top h.directory⟩
  rw [hkeeps.start_eq]
  exact hkeeps.walk hleads

end IsRoot

/-- The directory that a path leads to, or will lead to once what is missing on its way is
made. -/
def LeadsTo (l : LinkedTree) (root : String) (top : List String) : Prop :=
  ∃ l', SameLinks l l' ∧ IsRoot l' root top

/-- A path leads to its directory if this is there. -/
theorem IsRoot.leadsTo (h : IsRoot l root top) : LeadsTo l root top := ⟨l, .refl l, h⟩

/-- A path that leads to a directory will lead to no other. -/
theorem IsRoot.eq_of_leadsTo {top' : List String} (h : IsRoot l root top)
    (h' : LeadsTo l root top') : top' = top := by
  obtain ⟨l', hlinks, hroot⟩ := h'
  exact (h.unique_of_sameLinks hlinks hroot).symm

/-- Where a path will lead is decided by the symbolic links. -/
theorem SameLinks.leadsTo_iff (h : SameLinks l l') :
    LeadsTo l' root top ↔ LeadsTo l root top :=
  ⟨fun ⟨l'', hlinks, hroot⟩ => ⟨l'', h.trans hlinks, hroot⟩,
    fun ⟨l'', hlinks, hroot⟩ => ⟨l'', h.symm.trans hlinks, hroot⟩⟩

/-- A path that names a file is walked from where its root is walked from. -/
theorem start_of_below (hpath : Path.Below root [file] path) : l.start path = l.start root := by
  unfold start
  rw [hpath.absolute]

/-- Such a path comes to an end at any place. -/
theorem arrive_of_below (hpath : Path.Below root [file] path) (place : List String) :
    l.arrive path place = .ok place := by
  unfold arrive
  simp only [hpath.file]
  split <;> rfl

/-- The place of a file in a directory that a path leads to, where no symbolic link is. -/
theorem IsRoot.resolve_name (h : IsRoot l root top) (hpath : Path.Below root [file] path)
    (hfile : file ≠ "..") (hfits : file.utf8ByteSize ≤ nameLimit)
    (hlink : l.target? (top ++ [file]) = none) : l.resolve path = .ok (top ++ [file]) := by
  obtain ⟨left, hleads⟩ := h.leads
  rw [resolve, if_neg (by simp [hpath.isEmpty]), if_neg (by simpa using hpath.clean),
    start_of_below hpath, hpath.parts, walk_append hleads,
    walk_plain h.directory hfile hfits hlink]
  exact arrive_of_below hpath _

/-- Where a path leads somewhere, its root leads to a directory, and without a symbolic link
the place is the one of its name there. -/
theorem exists_isRoot_of_resolve (hpath : Path.Below root [file] path)
    (hroot : '\x00' ∉ root.toList) (hfile : file ≠ "..") (h : l.resolve path = .ok place) :
    ∃ top, IsRoot l root top ∧ file.utf8ByteSize ≤ nameLimit
      ∧ (l.target? (top ++ [file]) = none → place = top ++ [file]) := by
  rw [resolve, if_neg (by simp [hpath.isEmpty]), if_neg (by simpa using hpath.clean),
    start_of_below hpath, hpath.parts] at h
  split at h
  · cases h
  · rename_i found left hwalk
    rw [arrive_of_below hpath] at h
    cases h
    obtain ⟨top, left', htop, hlast⟩ := exists_walk_of_append hwalk
    obtain ⟨hdir, hfits, hplace⟩ := of_walk_plain hlast hfile
    exact ⟨top, ⟨hroot, ⟨left', htop⟩, hdir⟩, hfits, hplace⟩

/-- A path whose last link is not followed names a place in the directory of its root. -/
theorem exists_isRoot_of_locate (hpath : Path.Below root [file] path)
    (hroot : '\x00' ∉ root.toList) (hfile : file ≠ "..") (h : l.locate path = .ok place) :
    ∃ top, IsRoot l root top ∧ file.utf8ByteSize ≤ nameLimit ∧ place = top ++ [file] := by
  rw [locate, if_neg (by simp [hpath.isEmpty]), if_neg (by simpa using hpath.clean),
    start_of_below hpath, hpath.parts, approach, List.getLast?_concat, List.dropLast_concat] at h
  split at h
  · cases h
  · rename_i found happroach
    rw [arrive_of_below hpath] at h
    cases h
    simp only at happroach
    split at happroach
    · cases happroach
    · rename_i top left hwalk
      -- the last part is entered by name only, so what is found is a place below the root's own
      have hdir := enter_ok happroach
      rw [enter_plain hdir hfile] at happroach
      split at happroach
      · cases happroach
      · rename_i hlong
        exact ⟨top, ⟨hroot, ⟨left, hwalk⟩, hdir⟩, Nat.not_lt.mp hlong,
          (Except.ok.inj happroach).symm⟩

/-- What a path leads to stays where it is when all ways are kept. -/
theorem KeepsWays.resolve (h : KeepsWays l l') (hpath : Path.Below root [file] path)
    (hresolve : l.resolve path = .ok place) : l'.resolve path = .ok place := by
  unfold LinkedTree.resolve at hresolve ⊢
  rw [if_neg (by simp [hpath.isEmpty]), if_neg (by simpa using hpath.clean)] at hresolve ⊢
  rw [h.start_eq]
  split at hresolve
  · cases hresolve
  · rename_i found left hwalk
    rw [arrive_of_below hpath] at hresolve
    rw [h.walk hwalk]
    simp only [arrive_of_below hpath]
    exact hresolve

/-! ### Files -/

variable {content bytes : List UInt8}

/-- A path that leads somewhere has no NUL. -/
theorem clean_of_resolve (h : l.resolve path = .ok place) : '\x00' ∉ path.toList := by
  intro hnul
  unfold resolve at h
  split at h
  · cases h
  · rw [if_pos (by simpa using hnul)] at h
    cases h

/-- What is read at the place that a path leads to. -/
theorem read_of_resolve (h : l.resolve path = .ok place) :
    l.read path = match l.tree.find place with
      | none => .error .notFound
      | some .directory => .error .isDirectory
      | some (.file content) => .ok content := by
  simp only [read, h, bind, Except.bind]
  cases l.tree.find place with
  | none => rfl
  | some node => cases node <;> rfl

/-- What was read is the content of a file. -/
theorem exists_of_read (h : l.read path = .ok content) :
    ∃ place, l.resolve path = .ok place ∧ l.tree.find place = some (.file content) := by
  cases hresolve : l.resolve path with
  | error e => simp [read, hresolve, bind, Except.bind] at h
  | ok place =>
    rw [read_of_resolve hresolve] at h
    split at h
    · cases h
    · cases h
    · rename_i hfile
      exact ⟨place, rfl, Except.ok.inj h ▸ hfile⟩

/-- A file that was written is that at the place that its path leads to. -/
theorem exists_of_write (h : l.write path content = .ok l') :
    ∃ place, l.resolve path = .ok place ∧ l.tree.find place ≠ some .directory
      ∧ l' = l.store place content := by
  simp only [write, bind, Except.bind] at h
  split at h
  · cases h
  · rename_i place hresolve
    split at h
    · cases h
    · rename_i hfile
      exact ⟨place, hresolve, hfile, (Except.ok.inj h).symm⟩

/-- What is at a place is no link: no symbolic one, and no further name of a file. -/
structure IsOwn (l : LinkedTree) (place : List String) : Prop where
  symbolic : l.target? place = none
  hard : ∀ names ∈ l.hard, place ∉ names

/-- What is no link stays none when directories are made. -/
theorem Grows.isOwn (h : Grows l l') (hown : IsOwn l place) : IsOwn l' place where
  symbolic := (h.target?_eq place).trans hown.symbolic
  hard := by
    rw [h.hard]
    exact hown.hard

/-- A file that is no link has one name. -/
theorem IsOwn.names_eq (h : IsOwn l place) : l.names place = [place] := by
  unfold names
  have hnone : l.hard.find? (·.contains place) = none := by
    refine List.find?_eq_none.mpr fun names hmem => ?_
    simpa using h.hard names hmem
  rw [hnone]
  rfl

/-- A file that is no link is written at its own place only. -/
theorem IsOwn.store_eq (h : IsOwn l place) (content : List UInt8) :
    l.store place content = { l with tree := l.tree.put place (.file content) } := by
  unfold store
  rw [h.names_eq]
  rfl

/-- A file that is no link and got another name has gone from its place to that of this name,
and what was there is gone. -/
theorem exists_of_rename (h : l.rename path target = .ok l') :
    ∃ place new, l.locate path = .ok place ∧ l.locate target = .ok new
      ∧ (IsOwn l place → l.tree.find place = some (.file content) →
        l.tree.find new ≠ some .directory
          ∧ (new ≠ place → l' = (l.unlink new).moveFile place new content)) := by
  cases hplace : l.locate path with
  | error e => simp [rename, hplace, bind, Except.bind] at h
  | ok place =>
    cases hnew : l.locate target with
    | error e =>
      simp only [rename, hplace, hnew, bind, Except.bind] at h
      split at h <;> cases h
    | ok new =>
      -- a file of one name is moved, unless a directory is in the way
      refine ⟨place, new, rfl, rfl, fun hown hfile => ?_⟩
      simp only [rename, hplace, hnew, hown.symbolic, hfile, bind, Except.bind] at h
      split at h
      · cases h
      · rename_i hdir
        refine ⟨hdir, fun hne => ?_⟩
        have hnames : (l.names place).contains new = false := by
          rw [hown.names_eq]
          simpa using hne
        rw [hnames] at h
        exact (Except.ok.inj h).symm

/-- A tree without links has none at any place. -/
theorem isOwn_ofTree (t : FileTree) (place : List String) : IsOwn (ofTree t) place :=
  ⟨rfl, nofun⟩

/-- A name that was taken away holds no symbolic link, and the others hold those they held. -/
theorem target?_unlink (l : LinkedTree) (place other : List String) :
    (l.unlink place).target? other = if other = place then none else l.target? other := by
  unfold target? unlink
  dsimp only
  -- on the links: those that go are the ones at the place, and only they are looked up there
  induction l.symbolic with
  | nil => simp
  | cons link rest ih =>
    by_cases hlink : link.1 = place
    · rw [List.filter_cons_of_neg (by simpa using hlink), ih]
      by_cases hother : other = place
      · rw [if_pos hother, if_pos hother]
      · have hne : (other == link.1) = false := by simpa [hlink] using hother
        rw [if_neg hother, if_neg hother, List.lookup_cons, hne]
    · rw [List.filter_cons_of_pos (by simpa using hlink), List.lookup_cons, List.lookup_cons, ih]
      by_cases hother : other = link.1
      · have hne : link.1 ≠ place := hlink
        simp [hother, hne]
      · have hne : (other == link.1) = false := by simpa using hother
        rw [hne]

/-- Where a file is given a name that no symbolic link has, the links are the same. -/
theorem target?_moveFile (hnew : l.target? next = none) (other : List String) :
    ((l.unlink next).moveFile place next content).target? other = l.target? other := by
  have hunlink : ((l.unlink next).moveFile place next content).target? other
      = (l.unlink next).target? other := rfl
  rw [hunlink, target?_unlink]
  split
  · rename_i heq
    rw [heq, hnew]
  · rfl

/-- A file that was moved is at its new place and not at its old one, and everything else is
where it was. -/
theorem find_moveFile (hplace : place ≠ []) (hnext : next ≠ []) (other : List String) :
    ((l.unlink next).moveFile place next content).tree.find other
      = if other = next then some (.file content)
        else if other = place then none else l.tree.find other := by
  unfold moveFile unlink
  dsimp only
  split
  · rename_i heq
    rw [heq, FileTree.find_put_self _ _ _ hnext]
  · rename_i hother
    rw [FileTree.find_put_other _ _ _ _ hother]
    split
    · rename_i heq
      rw [heq, FileTree.find_erase_self _ _ hplace]
    · rename_i hother'
      rw [FileTree.find_erase_other _ _ _ hother', FileTree.find_erase_other _ _ _ hother]

/-- What is no link stays none when a file that is none is moved. -/
theorem IsOwn.moveFile (h : IsOwn l dir) (hplace : IsOwn l place) (hnew : l.target? next = none) :
    IsOwn ((l.unlink next).moveFile place next content) dir where
  symbolic := (target?_moveFile hnew dir).trans h.symbolic
  hard names hmem hdir := by
    obtain ⟨names', hnames', rfl⟩ := List.mem_map.mp hmem
    obtain ⟨old, hold, rfl⟩ := List.mem_map.mp hnames'
    obtain ⟨name, hname, heq⟩ := List.mem_map.mp hdir
    have hmem : name ∈ old := (List.mem_filter.mp hname).1
    -- the file that is moved has one name, so the names of the others are left alone
    have hne : name ≠ place := fun hc => hplace.hard old hold (hc ▸ hmem)
    rw [if_neg hne] at heq
    exact h.hard old hold (heq ▸ hmem)

/-! ### Files that are written and moved leave ways alone -/

/-- With the same links and the same directories all ways are the same. -/
theorem keepsWays_of_iff (hlinks : SameLinks l l')
    (h : ∀ place, l'.tree.find place = some .directory ↔ l.tree.find place = some .directory) :
    KeepsWays l l' ∧ KeepsWays l' l :=
  ⟨⟨hlinks, fun place => (h place).mpr⟩, ⟨hlinks.symm, fun place => (h place).mp⟩⟩

/-- A file that is written under its one name is in the way of nothing. -/
theorem put_keepsWays (content : List UInt8) (hplace : place ≠ [])
    (hfile : l.tree.find place ≠ some .directory) :
    KeepsWays l { l with tree := l.tree.put place (.file content) }
      ∧ KeepsWays { l with tree := l.tree.put place (.file content) } l := by
  refine keepsWays_of_iff ⟨rfl, fun _ => rfl⟩ fun other => ?_
  by_cases hother : other = place
  · subst hother
    rw [FileTree.find_put_self _ _ _ hplace]
    exact iff_of_false nofun hfile
  · rw [FileTree.find_put_other _ _ _ _ hother]

/-- So is one that is moved where no directory and no symbolic link is. -/
theorem moveFile_keepsWays (hplace : place ≠ []) (hnext : next ≠ [])
    (hfile : l.tree.find place = some (.file content))
    (hdir : l.tree.find next ≠ some .directory) (hlink : l.target? next = none) :
    KeepsWays l ((l.unlink next).moveFile place next content)
      ∧ KeepsWays ((l.unlink next).moveFile place next content) l := by
  refine keepsWays_of_iff ⟨rfl, target?_moveFile hlink⟩ fun other => ?_
  rw [find_moveFile hplace hnext]
  split
  · rename_i heq
    subst heq
    exact iff_of_false nofun hdir
  · split
    · rename_i heq
      subst heq
      rw [hfile]
      exact iff_of_false nofun nofun
    · exact Iff.rfl

/-! ### Trees without links -/

/-- Without links no walk is interrupted. -/
theorem stretch_ofTree (t : FileTree) (place names : List String) :
    (ofTree t).stretch place names = (t.walk place names).map (·, none) := by
  induction names generalizing place with
  | nil => rfl
  | cons part names ih =>
    have henter : (ofTree t).tree.enter place part = t.enter place part := rfl
    simp only [stretch, FileTree.walk, henter]
    cases t.enter place part with
    | error e => rfl
    | ok next => exact ih next

/-- So a walk is that of the tree. -/
theorem walk_ofTree (t : FileTree) (left : Nat) (place names : List String) :
    (ofTree t).walk left place names = (t.walk place names).map (·, left) := by
  unfold walk
  rw [stretch_ofTree]
  cases t.walk place names <;> rfl

/-- So is one that follows no link at its end. -/
theorem approach_ofTree (t : FileTree) (place names : List String) :
    (ofTree t).approach place names = t.walk place names := by
  rcases List.eq_nil_or_concat names with rfl | ⟨names, part, rfl⟩
  · rfl
  · rw [approach, List.concat_eq_append, List.getLast?_concat, List.dropLast_concat]
    dsimp only
    rw [walk_ofTree, FileTree.walk_concat_eq]
    cases t.walk place names <;> rfl

/-- A path starts where it starts in the tree. -/
theorem start_ofTree (t : FileTree) (path : String) :
    (ofTree t).start path = if Path.isAbsolute path then [] else t.working := rfl

/-- Without links a path leads where it leads in the tree. -/
theorem resolve_ofTree (t : FileTree) (path : String) :
    (ofTree t).resolve path = t.resolve path := by
  unfold resolve FileTree.resolve
  rw [walk_ofTree]
  split
  · rfl
  · split
    · rfl
    · rw [start_ofTree]
      cases t.walk (if Path.isAbsolute path then [] else t.working) (Path.parts path) <;> rfl

/-- There is no link that it could lead to. -/
theorem locate_ofTree (t : FileTree) (path : String) :
    (ofTree t).locate path = t.resolve path := by
  unfold locate FileTree.resolve
  rw [approach_ofTree]
  split
  · rfl
  · split
    · rfl
    · rw [start_ofTree]
      cases t.walk (if Path.isAbsolute path then [] else t.working) (Path.parts path) <;> rfl

/-- A file has the content that it has in the tree. -/
theorem read_ofTree (t : FileTree) (path : String) : (ofTree t).read path = t.read path := by
  simp only [read, FileTree.read, FileTree.lookup, resolve_ofTree, bind, Except.bind]
  cases t.resolve path with
  | error e => rfl
  | ok place =>
    have hfind : (ofTree t).tree.find place = t.find place := rfl
    simp only [hfind]
    cases t.find place with
    | none => rfl
    | some node => cases node <;> rfl

/-- It is written as in the tree. -/
theorem write_ofTree (t : FileTree) (path : String) (content : List UInt8) :
    (ofTree t).write path content = (t.write path content).map ofTree := by
  simp only [write, FileTree.write, resolve_ofTree, bind, Except.bind]
  cases t.resolve path with
  | error e => rfl
  | ok place =>
    have hfind : (ofTree t).tree.find place = t.find place := rfl
    simp only [hfind]
    cases t.find place with
    | none => rfl
    | some node => cases node <;> rfl

/-- A directory is made as in the tree. -/
theorem makeDirectory_ofTree (t : FileTree) (left : Nat) (place : List String) (part : String) :
    (ofTree t).makeDirectory left place part
      = (t.makeDirectory place part).map fun (t, next) => (ofTree t, next, left) := by
  have henter : (ofTree t).tree.enter place part = t.enter place part := rfl
  have hmake : (ofTree t).tree.makeDirectory place part = t.makeDirectory place part := rfl
  simp only [makeDirectory, henter, hmake, bind, Except.bind]
  cases hentered : t.enter place part with
  | error e => simp only [FileTree.makeDirectory, hentered, bind, Except.bind, Except.map]
  | ok next =>
    have htarget : (ofTree t).target? next = none := rfl
    simp only [htarget]
    cases t.makeDirectory place part <;> rfl

/-- So are several, one after the other, whether or not all of them can be made. -/
theorem makeAll_ofTree (t : FileTree) (left : Nat) (place names : List String) :
    (ofTree t).makeAll left place names
      = (ofTree (t.makeAll place names).1, (t.makeAll place names).2) := by
  induction names generalizing t place with
  | nil => rfl
  | cons part names ih =>
    simp only [makeAll, FileTree.makeAll, makeDirectory_ofTree]
    cases t.makeDirectory place part with
    | error e => rfl
    | ok made => exact ih made.1 made.2

/-- So are those of a path. -/
theorem createDirectories_ofTree (t : FileTree) (path : String) :
    (ofTree t).createDirectories path
      = (ofTree (t.createDirectories path).1, (t.createDirectories path).2) := by
  unfold createDirectories FileTree.createDirectories
  split
  · rfl
  · rw [start_ofTree]
    unfold makeWay FileTree.makeWay
    rw [approach_ofTree, makeAll_ofTree]
    generalize (if Path.isAbsolute path then [] else t.working) = place
    cases hwalk : t.walk place (Path.parts path) with
    | ok next => rfl
    | error e =>
      -- a walk that follows no link does not run out of links
      cases e with
      | tooManyLinks => exact absurd hwalk FileTree.walk_ne_tooManyLinks
      | _ => rfl

/-- A file is moved as in the tree: there what had the new name goes when the file is put
there, here it is taken away before. -/
theorem moveFile_ofTree (t : FileTree) (old new : List String) (content : List UInt8) :
    ((ofTree t).unlink new).moveFile old new content
      = ofTree ((t.erase old).put new (.file content)) := by
  have hnodes : ((t.nodes.filter (·.1 != new)).filter (·.1 != old)).filter (·.1 != new)
      = (t.nodes.filter (·.1 != old)).filter (·.1 != new) := by
    simp only [List.filter_filter]
    refine List.filter_congr fun entry _ => ?_
    cases entry.1 != new <;> simp
  simp only [moveFile, unlink, ofTree, FileTree.put, FileTree.erase, List.filter_nil,
    List.map_nil, hnodes]

/-- A file gets another name as in the tree. -/
theorem rename_ofTree (t : FileTree) {source target : String}
    (hne : t.resolve source ≠ t.resolve target) :
    (ofTree t).rename source target = (t.rename source target).map ofTree := by
  simp only [rename, FileTree.rename, locate_ofTree, bind, Except.bind]
  cases hold : t.resolve source with
  | error e => simp only [FileTree.read, FileTree.lookup, hold, bind, Except.bind, Except.map]
  | ok old =>
    have hfind (place : List String) : (ofTree t).tree.find place = t.find place := rfl
    have htarget : (ofTree t).target? old = none := rfl
    simp only [FileTree.read_of_resolve hold, htarget, hfind]
    cases t.find old with
    | none => rfl
    | some node =>
      cases node with
      | directory => rfl
      | file content =>
        cases hnew : t.resolve target with
        | error e => rfl
        | ok new =>
          have hplaces : new ≠ old := fun heq => hne (by rw [hold, hnew, heq])
          have hnames : ((ofTree t).names old).contains new = false := by
            simpa [names, ofTree] using hplaces
          have hmoved := moveFile_ofTree t old new content
          simp only [hnames]
          cases t.find new with
          | none => exact congrArg Except.ok hmoved
          | some node =>
            cases node with
            | directory => rfl
            | file old => exact congrArg Except.ok hmoved

end Tenure.LinkedTree
