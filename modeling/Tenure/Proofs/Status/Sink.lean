import Tenure.Status.Sink
import Tenure.Proofs.FileTree.Links
import Tenure.Proofs.Status.Codec
import Tenure.Proofs.Store.Failure

/-!
# `Tenure.Proofs.Status.Sink`: the last good document

A document is published in three steps: the directory is made, the document is written
beside its file, and the written file takes the place of the old one. Each step may fail,
and the process may end between two of them or in the middle of one; a full disk may cut a
file short. `Attempt` lists what one publication can come to, and `History` puts them
together to any number of publications under any names.

The document is written to where the name of the temporary file leads. If that is a link, it
may be the file of another name, or the one that is to be replaced (`another_file_changes`).
If the files that a publication writes are no links (`Unlinked`), only the last step touches
a file whose name ends in `.json`, and it replaces that file as a whole. The temporary file of
one name is never the file of another one, since its name ends in `.tmp`. So the file of each
name has the last document that was published in full, or what it had in the beginning.

There may be links anywhere else: on the way to the directory, and in place of files under
names that nothing is published under. Such a file keeps what it has unless it is one of those
that a publication writes (`Apart`).

* `publish_spec`: a publication takes all three steps, or is cut short.
* `Published.replaces`: what a publication does that succeeds.
* `CutShort.file_iff`: a publication that does not get to its last step leaves every file
  alone but its temporary one.
* `holds_last_good`: what is in the files after each publication, and after all of them.
-/

set_option autoImplicit false

namespace Tenure.Status.Sink

open LinkedTree
open FileTree (nameLimit find_put_self find_put_other)
open Store.Directory (IsRecordPlace Spares recordIn append_ne eq_ok_of_toOption)

variable {s : Sink} {d : Document} {l l' l'' l₁ l₂ : LinkedTree} {name other : String}
  {top place : List String} {content bytes : List UInt8}

/-! ### The files of a name -/

/-- The file that a document is written to, beside the file of its name. -/
def tempIn (top : List String) (name : String) : List String := top ++ [name ++ ".json.tmp"]

/-- The file of a plain name has a plain name. -/
theorem isPlain_json (hname : Path.IsPlain name) : Path.IsPlain (name ++ ".json") :=
  Path.plain_append hname (by decide) (by decide) (by decide)

/-- The temporary file of a plain name has a plain name. -/
theorem isPlain_temp (hname : Path.IsPlain name) : Path.IsPlain (name ++ ".json.tmp") :=
  Path.plain_append hname (by decide) (by decide) (by decide)

/-- The file of a plain name is right in the directory of the sink. -/
theorem below_path (hclean : '\x00' ∉ s.directory.toList) (hname : Path.IsPlain name) :
    Path.Below s.directory [name ++ ".json"] (s.path name) :=
  Path.below_join hclean (isPlain_json hname)

/-- The temporary file of a plain name is right in the directory of the sink. -/
theorem below_temp (hclean : '\x00' ∉ s.directory.toList) (hname : Path.IsPlain name) :
    Path.Below s.directory [name ++ ".json.tmp"] (Path.temp (s.path name)) := by
  have hpath : Path.Below s.directory ([] ++ [name ++ ".json"]) (s.path name) :=
    below_path hclean hname
  exact hpath.temp hclean nofun hname

/-- The name of a temporary file does not end in `.json`. -/
theorem temp_notRecordPlace : ¬ IsRecordPlace (tempIn top name) := by
  rintro ⟨dir, other, heq⟩
  have hlast := List.append_inj_right' heq rfl
  exact append_ne 'p' 'n' rfl rfl (by decide) (List.cons.inj hlast).1

/-- No file is the temporary one of a name and the file of a name. -/
theorem recordIn_ne_tempIn (dir : List String) : recordIn dir other ≠ tempIn top name :=
  fun heq => temp_notRecordPlace ⟨dir, other, heq.symm⟩

/-- The files of two names are two files. -/
theorem recordIn_ne (h : other ≠ name) (dir : List String) :
    recordIn dir other ≠ recordIn top name := by
  intro heq
  have hlast := List.append_inj_right' heq rfl
  exact h (String.append_left_inj _ |>.mp (List.cons.inj hlast).1)

/-- Where the file of a name is, unless a symbolic link is in its place. -/
theorem resolve_path (hroot : IsRoot l s.directory top) (hname : Path.IsPlain name)
    (hfits : (name ++ ".json").utf8ByteSize ≤ nameLimit)
    (hlink : l.target? (recordIn top name) = none) :
    l.resolve (s.path name) = .ok (recordIn top name) :=
  hroot.resolve_name (below_path hroot.clean hname) (isPlain_json hname).parent hfits hlink

/-- The file of a name is found only if the directory is there, and in it unless a symbolic
link is in its place. -/
theorem exists_of_resolve_path (hname : Path.IsPlain name)
    (h : l.resolve (s.path name) = .ok place) :
    ∃ top, IsRoot l s.directory top ∧ (name ++ ".json").utf8ByteSize ≤ nameLimit
      ∧ (l.target? (recordIn top name) = none → place = recordIn top name) := by
  -- the path of the file starts with that of the directory, and no part of it has a NUL
  have hclean : '\x00' ∉ s.directory.toList := fun hnul =>
    clean_of_resolve h (Path.mem_join_left (isPlain_json hname) hnul)
  exact exists_isRoot_of_resolve (below_path hclean hname) hclean (isPlain_json hname).parent h

/-- The files that are written to publish under a name are no links: the file of the name is no
symbolic link, and the temporary one neither a symbolic link nor one of several names of a
file. -/
def Unlinked (s : Sink) (l : LinkedTree) (name : String) : Prop :=
  ∀ top, LeadsTo l s.directory top →
    l.target? (recordIn top name) = none ∧ IsOwn l (tempIn top name)

/-- In a tree without links no file is one. -/
theorem unlinked_ofTree (s : Sink) (t : FileTree) (name : String) : Unlinked s (.ofTree t) name :=
  fun top _ => ⟨rfl, isOwn_ofTree t (tempIn top name)⟩

/-! ### One publication -/

/-- A path that directories are made of has no NUL. -/
theorem clean_of_createDirectories {path : String}
    (h : l.createDirectories path = (l₁, .ok ())) : '\x00' ∉ path.toList := by
  intro hnul
  rw [createDirectories, if_pos (by simpa using hnul)] at h
  cases h

/-- What a publication may leave that does not get to its last step. -/
inductive CutShort (s : Sink) (name : String) (l : LinkedTree) : LinkedTree → Prop
  /-- Some of the directories on the way are made. -/
  | making (count : Nat) : CutShort s name l
      (l.makeAll linkLimit (l.start s.directory) ((Path.parts s.directory).take count)).1
  /-- All of them are made, and the temporary file is written, or part of it. -/
  | staging {l₁ l₂ : LinkedTree} {content : List UInt8}
      (hmade : l.createDirectories s.directory = (l₁, .ok ()))
      (hwrite : l₁.write (Path.temp (s.path name)) content = .ok l₂) : CutShort s name l l₂

/-- Directories are made of the first parts of a path, or of all. -/
theorem exists_createDirectories (s : Sink) (l : LinkedTree) : ∃ count,
    (l.createDirectories s.directory).1
      = (l.makeAll linkLimit (l.start s.directory) ((Path.parts s.directory).take count)).1 := by
  unfold createDirectories
  split
  · exact ⟨0, rfl⟩
  · rcases l.makeWay_cases (l.start s.directory) (Path.parts s.directory) with ⟨e, heq⟩ | heq
    · exact ⟨0, by rw [heq]; rfl⟩
    · exact ⟨(Path.parts s.directory).length, by rw [heq, List.take_length]⟩

/-- A publication may end as soon as it has made directories. -/
theorem createDirectories_cutShort (s : Sink) (name : String) (l : LinkedTree) :
    CutShort s name l (l.createDirectories s.directory).1 := by
  obtain ⟨count, heq⟩ := exists_createDirectories s l
  rw [heq]
  exact .making count

/-- What a publication does that takes all three steps. -/
inductive Published (s : Sink) (d : Document) (l : LinkedTree) : LinkedTree → Prop
  | steps {l₁ l₂ l' : LinkedTree} (hmade : l.createDirectories s.directory = (l₁, .ok ()))
      (hwrite : l₁.write (Path.temp (s.path d.name)) d.fileBytes = .ok l₂)
      (hrename : l₂.rename (Path.temp (s.path d.name)) (s.path d.name) = .ok l') :
      Published s d l l'

/-- A publication takes all three steps, or fails and does not get to the last one. -/
theorem publish_spec {result : Except WriteError Unit} (h : s.publish l d = (l', result)) :
    match result with
    | .ok () => Published s d l l'
    | .error _ => CutShort s d.name l l' := by
  have hmaking := createDirectories_cutShort s d.name l
  unfold publish writeAll at h
  cases hmade : l.createDirectories s.directory with
  | mk l₁ made =>
    rw [hmade] at hmaking h
    cases made with
    | error e =>
      cases h
      exact hmaking
    | ok u =>
      -- the directory is there: now the temporary file has to be written, and then renamed
      cases hwrite : l₁.write (Path.temp (s.path d.name)) d.fileBytes with
      | error e =>
        simp only [hwrite] at h
        cases h
        exact hmaking
      | ok l₂ =>
        cases hrename : l₂.rename (Path.temp (s.path d.name)) (s.path d.name) with
        | error e =>
          simp only [hwrite, hrename] at h
          cases h
          exact .staging hmade hwrite
        | ok l₃ =>
          simp only [hwrite, hrename] at h
          cases h
          exact .steps hmade hwrite hrename

/-! ### What a publication leaves alone -/

/-- The directories stay, the links are the same, and what is no link stays none. Nothing is
made if the directory of the sink is there. -/
structure Leaves (s : Sink) (l l' : LinkedTree) : Prop where
  ways : KeepsWays l l'
  own : ∀ place, IsOwn l place → IsOwn l' place
  still : (∃ top, IsRoot l s.directory top) → KeepsWays l' l

namespace Leaves

/-- What does not change is left alone. -/
theorem refl (s : Sink) (l : LinkedTree) : Leaves s l l := ⟨.refl l, fun _ h => h, fun _ => .refl l⟩

/-- Publications leave one after another what each of them leaves. -/
theorem trans (h : Leaves s l l') (h' : Leaves s l' l'') : Leaves s l l'' where
  ways := h.ways.trans h'.ways
  own place hown := h'.own place (h.own place hown)
  still := fun ⟨top, hroot⟩ => (h'.still ⟨top, hroot.keeps h.ways⟩).trans (h.still ⟨top, hroot⟩)

/-- The files of a name that are no links stay such. -/
theorem unlinked (h : Leaves s l l') (hunlinked : Unlinked s l name) : Unlinked s l' name := by
  intro top hleads
  obtain ⟨hlink, hown⟩ := hunlinked top (h.ways.leadsTo_iff.mp hleads)
  exact ⟨(h.ways.links _).trans hlink, h.own _ hown⟩

end Leaves

/-- The directories that are made on the way change nothing else. -/
theorem making_leaves (s : Sink) (l : LinkedTree) (count : Nat) : Leaves s l
    (l.makeAll linkLimit (l.start s.directory) ((Path.parts s.directory).take count)).1 := by
  have hgrows := makeAll_grows l linkLimit (l.start s.directory)
    ((Path.parts s.directory).take count)
  refine ⟨hgrows.keepsWays, fun place hown => hgrows.isOwn hown, fun ⟨top, hroot⟩ => ?_⟩
  rw [hroot.makeAll_take]
  exact .refl l

/-- By making the directories nothing but directories is new. -/
theorem createDirectories_leaves (hmade : l.createDirectories s.directory = (l₁, .ok ())) :
    Grows l l₁ ∧ Leaves s l l₁ := by
  have hgrows := createDirectories_grows l s.directory
  obtain ⟨count, hcount⟩ := exists_createDirectories s l
  rw [hmade] at hgrows hcount
  have hleaves := making_leaves s l count
  rw [← hcount] at hleaves
  exact ⟨hgrows, hleaves⟩

/-- The temporary file is written into the directory of the sink. -/
theorem exists_staged (hname : Path.IsPlain name) (hunlinked : Unlinked s l name)
    (hmade : l.createDirectories s.directory = (l₁, .ok ()))
    (hwrite : l₁.write (Path.temp (s.path name)) content = .ok l₂) :
    ∃ top, IsRoot l₁ s.directory top ∧ l₁.tree.find (tempIn top name) ≠ some .directory
      ∧ l₂ = { l₁ with tree := l₁.tree.put (tempIn top name) (.file content) } := by
  have hclean := clean_of_createDirectories hmade
  obtain ⟨place, hresolve, hfile, rfl⟩ := exists_of_write hwrite
  obtain ⟨top, hroot, -, hplace⟩ := exists_isRoot_of_resolve (below_temp hclean hname) hclean
    (isPlain_temp hname).parent hresolve
  have hunlinked₁ := (createDirectories_leaves hmade).2.unlinked hunlinked
  obtain ⟨-, hown⟩ := hunlinked₁ top hroot.leadsTo
  obtain rfl : place = tempIn top name := hplace hown.symbolic
  exact ⟨top, hroot, hfile, hown.store_eq content⟩

/-- A temporary file leaves everything alone that was there. -/
theorem put_leaves (s : Sink) (content : List UInt8)
    (hfile : l.tree.find (tempIn top name) ≠ some .directory) : Leaves s l
      { l with tree := l.tree.put (tempIn top name) (.file content) } := by
  obtain ⟨hkeeps, hback⟩ := put_keepsWays content (by simp [tempIn]) hfile
  exact ⟨hkeeps, fun place hown => ⟨hown.symbolic, hown.hard⟩, fun _ => hback⟩

/-- The temporary file takes the place of the file of its name. -/
theorem rename_staged (hname : Path.IsPlain name) (hroot : IsRoot l s.directory top)
    (hown : IsOwn l (tempIn top name))
    (hstaged : l.tree.find (tempIn top name) = some (.file content))
    (hrename : l.rename (Path.temp (s.path name)) (s.path name) = .ok l') :
    (name ++ ".json").utf8ByteSize ≤ nameLimit
      ∧ l.tree.find (recordIn top name) ≠ some .directory
      ∧ l' = (l.unlink (recordIn top name)).moveFile (tempIn top name) (recordIn top name)
        content := by
  obtain ⟨source, target, hsource, htarget, hmoved⟩ := exists_of_rename hrename
  obtain ⟨top', hroot', -, rfl⟩ := exists_isRoot_of_locate (below_temp hroot.clean hname)
    hroot.clean (isPlain_temp hname).parent hsource
  obtain ⟨top'', hroot'', hfits, rfl⟩ := exists_isRoot_of_locate (below_path hroot.clean hname)
    hroot.clean (isPlain_json hname).parent htarget
  -- both paths start in the one directory that the sink leads to
  obtain rfl := hroot.unique_of_sameLinks (.refl l) hroot'
  obtain rfl := hroot.unique_of_sameLinks (.refl l) hroot''
  obtain ⟨hdir, heq⟩ := hmoved hown hstaged
  exact ⟨hfits, hdir, heq (recordIn_ne_tempIn top)⟩

namespace CutShort

/-- A publication that does not get to its last step leaves all ways and links alone. -/
theorem leaves (h : CutShort s name l l') (hname : Path.IsPlain name)
    (hunlinked : Unlinked s l name) : Leaves s l l' := by
  cases h with
  | making count => exact making_leaves s l count
  | staging hmade hwrite =>
    obtain ⟨top, -, hfile, rfl⟩ := exists_staged hname hunlinked hmade hwrite
    exact (createDirectories_leaves hmade).2.trans (put_leaves s _ hfile)

/-- It leaves every file alone but its temporary one. -/
theorem file_iff (h : CutShort s name l l') (hname : Path.IsPlain name)
    (hunlinked : Unlinked s l name)
    (hplace : ∀ top, LeadsTo l s.directory top → place ≠ tempIn top name) :
    l'.tree.find place = some (.file bytes) ↔ l.tree.find place = some (.file bytes) := by
  cases h with
  | making count => exact (makeAll_grows l _ _ _).file_iff bytes
  | staging hmade hwrite =>
    obtain ⟨top, hroot, -, rfl⟩ := exists_staged hname hunlinked hmade hwrite
    obtain ⟨hgrows, hleaves⟩ := createDirectories_leaves hmade
    have hleads := hleaves.ways.leadsTo_iff.mp hroot.leadsTo
    rw [find_put_other _ _ _ _ (hplace top hleads)]
    exact hgrows.file_iff bytes

/-- So every file is left alone whose name ends in `.json`. -/
theorem spares (h : CutShort s name l l') (hname : Path.IsPlain name)
    (hunlinked : Unlinked s l name) : Spares l.tree l'.tree := by
  rintro place bytes ⟨dir, other, rfl⟩
  exact h.file_iff hname hunlinked fun top _ => recordIn_ne_tempIn dir

end CutShort

/-- In the directory of the sink there is a file of a name, with this content. -/
structure Holds (s : Sink) (l : LinkedTree) (name : String) (bytes : List UInt8)
    (top : List String) : Prop where
  root : IsRoot l s.directory top
  fits : (name ++ ".json").utf8ByteSize ≤ nameLimit
  link : l.target? (recordIn top name) = none
  file : l.tree.find (recordIn top name) = some (.file bytes)

/-- The content of such a file is what is read under the name. -/
theorem Holds.read (h : Holds s l name bytes top) (hname : Path.IsPlain name) :
    l.read (s.path name) = .ok bytes := by
  rw [read_of_resolve (resolve_path h.root hname h.fits h.link), h.file]

namespace Published

/-- The steps of a publication, as far as they differ from those of one that is cut short: the
temporary file is there, and takes the place of the file of its name. -/
theorem exists_replaced (h : Published s d l l') (hname : Path.IsPlain d.name)
    (hunlinked : Unlinked s l d.name) :
    ∃ l₂ top, CutShort s d.name l l₂ ∧ IsRoot l₂ s.directory top
      ∧ l₂.tree.find (tempIn top d.name) = some (.file d.fileBytes)
      ∧ (d.name ++ ".json").utf8ByteSize ≤ nameLimit
      ∧ l₂.tree.find (recordIn top d.name) ≠ some .directory
      ∧ l' = (l₂.unlink (recordIn top d.name)).moveFile (tempIn top d.name)
        (recordIn top d.name) d.fileBytes := by
  obtain @⟨l₁, _, _, hmade, hwrite, hrename⟩ := h
  have hcut := CutShort.staging hmade hwrite
  have hunlinked₂ := (hcut.leaves hname hunlinked).unlinked hunlinked
  obtain ⟨top, hroot₁, hfile, rfl⟩ := exists_staged hname hunlinked hmade hwrite
  have hroot := hroot₁.keeps (put_leaves s d.fileBytes hfile).ways
  have hstaged := find_put_self l₁.tree (tempIn top d.name) (.file d.fileBytes)
    (by simp [tempIn])
  exact ⟨_, top, hcut, hroot, hstaged,
    rename_staged hname hroot (hunlinked₂ top hroot.leadsTo).2 hstaged hrename⟩

/-- A publication leaves all ways and links alone. -/
theorem leaves (h : Published s d l l') (hname : Path.IsPlain d.name)
    (hunlinked : Unlinked s l d.name) : Leaves s l l' := by
  obtain ⟨l₂, top, hcut, hroot, hstaged, -, hdir, rfl⟩ := h.exists_replaced hname hunlinked
  have hleaves := hcut.leaves hname hunlinked
  obtain ⟨hlink, hown⟩ := hleaves.unlinked hunlinked top hroot.leadsTo
  obtain ⟨hkeeps, hback⟩ := moveFile_keepsWays (by simp [tempIn]) (by simp [recordIn]) hstaged
    hdir hlink
  exact hleaves.trans ⟨hkeeps, fun place hplace => hplace.moveFile hown hlink, fun _ => hback⟩

/-- It leaves every file alone but its temporary one and the file of its name. -/
theorem file_iff (h : Published s d l l') (hname : Path.IsPlain d.name)
    (hunlinked : Unlinked s l d.name)
    (htemp : ∀ top, LeadsTo l s.directory top → place ≠ tempIn top d.name)
    (hrecord : ∀ top, LeadsTo l s.directory top → place ≠ recordIn top d.name) :
    l'.tree.find place = some (.file bytes) ↔ l.tree.find place = some (.file bytes) := by
  obtain ⟨l₂, top, hcut, hroot, -, -, -, rfl⟩ := h.exists_replaced hname hunlinked
  have hleads := (hcut.leaves hname hunlinked).ways.leadsTo_iff.mp hroot.leadsTo
  rw [find_moveFile (by simp [tempIn]) (by simp [recordIn]), if_neg (hrecord top hleads),
    if_neg (htemp top hleads)]
  exact hcut.file_iff hname hunlinked htemp

end Published

/-! ### Many publications -/

/-- A publication of a document, and whether it succeeded. -/
structure Publication where
  document : Document
  succeeded : Bool

/-- What a publication does to the tree. It succeeds, it fails, or it is cut short from
outside. -/
inductive Attempt (s : Sink) (l : LinkedTree) : Publication → LinkedTree → Prop
  | success {d : Document} {l' : LinkedTree} (h : s.publish l d = (l', .ok ())) :
      Attempt s l ⟨d, true⟩ l'
  | failure {d : Document} {l' : LinkedTree} {e : WriteError}
      (h : s.publish l d = (l', .error e)) : Attempt s l ⟨d, false⟩ l'
  | cut {d : Document} {l' : LinkedTree} (h : CutShort s d.name l l') : Attempt s l ⟨d, false⟩ l'

/-- Publications under plain names, one after another. -/
inductive History (s : Sink) (l : LinkedTree) : List Publication → LinkedTree → Prop
  | start : History s l [] l
  | attempt {past : List Publication} {p : Publication} {l' l'' : LinkedTree}
      (h : History s l past l') (hname : Path.IsPlain p.document.name)
      (hnext : Attempt s l' p l'') : History s l (past ++ [p]) l''

/-- The last document that was published in full under a name. -/
def lastGood (past : List Publication) (name : String) : Option Document :=
  (past.reverse.find? fun p => p.succeeded && p.document.name == name).map (·.document)

/-- What was published in full was published under another name than one that has no good
document. -/
theorem ne_of_lastGood_eq_none {past : List Publication} {p : Publication}
    (hnone : lastGood past name = none) (hp : p ∈ past) (hdone : p.succeeded = true) :
    p.document.name ≠ name := by
  unfold lastGood at hnone
  rw [Option.map_eq_none_iff, List.find?_eq_none] at hnone
  simpa [hdone] using hnone p (List.mem_reverse.mpr hp)

/-- No link leads from the file of a name to one of those that are written to publish under
another name. -/
def Apart (s : Sink) (l : LinkedTree) (name other : String) : Prop :=
  ∀ top place, IsRoot l s.directory top → l.resolve (s.path name) = .ok place →
    place ≠ recordIn top other ∧ place ≠ tempIn top other

/-- A file that is no symbolic link leads to no other one. -/
theorem apart_of_target? (hname : Path.IsPlain name) (hother : name ≠ other)
    (hlink : ∀ top, IsRoot l s.directory top → l.target? (recordIn top name) = none) :
    Apart s l name other := by
  intro top place hroot hresolve
  obtain ⟨top', hroot', -, hplace⟩ := exists_of_resolve_path hname hresolve
  obtain rfl := hroot.unique_of_sameLinks (.refl l) hroot'
  rw [hplace (hlink top hroot)]
  exact ⟨recordIn_ne hother top, recordIn_ne_tempIn top⟩

/-- The files of a name keep their content, in whatever directory they are, and the symbolic
links of this name go on holding the path that they hold. What could be read of the sink under
the name can be read, and nothing else if the directory of the sink was there. -/
structure Keeps (s : Sink) (name : String) (others : List String) (l l' : LinkedTree) :
    Prop where
  files : ∀ dir bytes, l'.tree.find (recordIn dir name) = some (.file bytes)
    ↔ l.tree.find (recordIn dir name) = some (.file bytes)
  links : ∀ dir, l'.target? (recordIn dir name) = l.target? (recordIn dir name)
  readable : (∀ other ∈ others, other ≠ name → Apart s l name other) →
    ∀ bytes, l.read (s.path name) = .ok bytes → l'.read (s.path name) = .ok bytes
  nothingNew : (∀ other ∈ others, other ≠ name → Apart s l name other) →
    (∃ top, IsRoot l s.directory top) →
    ∀ bytes, l'.read (s.path name) = .ok bytes → l.read (s.path name) = .ok bytes

/-- What is written to publish under other names, and to publish under this one without
success, is none of the files that are read under it. -/
theorem keeps_of_file_iff {others : List String} (hname : Path.IsPlain name)
    (hleaves : Leaves s l l') (hlinks : ∀ other ∈ others, Unlinked s l other)
    (hfiles : ∀ place, (∀ other ∈ others, ∀ top, LeadsTo l s.directory top →
        place ≠ tempIn top other ∧ (other ≠ name → place ≠ recordIn top other)) →
      ∀ bytes, l'.tree.find place = some (.file bytes) ↔ l.tree.find place = some (.file bytes)) :
    Keeps s name others l l' := by
  -- the file that the path of the name leads to is not written either
  have hread (hapart : ∀ other ∈ others, other ≠ name → Apart s l name other) {place bytes}
      (hresolve : l.resolve (s.path name) = .ok place) :
      l'.tree.find place = some (.file bytes) ↔ l.tree.find place = some (.file bytes) := by
    obtain ⟨top, hroot, -, hplace⟩ := exists_of_resolve_path hname hresolve
    refine hfiles place (fun other hmem top' hleads => ?_) bytes
    obtain rfl := hroot.eq_of_leadsTo hleads
    by_cases hother : other = name
    · rw [hplace (hother ▸ (hlinks other hmem top' hleads).1)]
      exact ⟨recordIn_ne_tempIn top', fun hne => absurd hother hne⟩
    · obtain ⟨hrecord, htemp⟩ := hapart other hmem hother top' place hroot hresolve
      exact ⟨htemp, fun _ => hrecord⟩
  have hbelow (hclean : '\x00' ∉ s.directory.toList) := below_path hclean hname
  refine ⟨fun dir bytes => hfiles _ (fun other _ top _ => ?_) bytes,
    fun dir => hleaves.ways.links _, fun hapart bytes h => ?_, fun hapart hthere bytes h => ?_⟩
  · exact ⟨recordIn_ne_tempIn dir, fun hne => recordIn_ne (Ne.symm hne) dir⟩
  · obtain ⟨place, hresolve, hfile⟩ := exists_of_read h
    obtain ⟨top, hroot, -, -⟩ := exists_of_resolve_path hname hresolve
    rw [read_of_resolve (hleaves.ways.resolve (hbelow hroot.clean) hresolve),
      (hread hapart hresolve).mpr hfile]
  · obtain ⟨place, hresolve, hfile⟩ := exists_of_read h
    have hback := hleaves.still hthere
    obtain ⟨top, hroot⟩ := hthere
    have hresolve := hback.resolve (hbelow hroot.clean) hresolve
    rw [read_of_resolve hresolve, (hread hapart hresolve).mp hfile]

namespace Attempt

variable {p : Publication}

/-- A publication takes all three steps exactly if it succeeds. -/
theorem published_or_cutShort (h : Attempt s l p l') :
    (p.succeeded = true ∧ Published s p.document l l')
      ∨ (p.succeeded = false ∧ CutShort s p.document.name l l') := by
  cases h with
  | success h => exact .inl ⟨rfl, publish_spec h⟩
  | failure h => exact .inr ⟨rfl, publish_spec h⟩
  | cut h => exact .inr ⟨rfl, h⟩

/-- One that succeeds takes all three. -/
theorem published (h : Attempt s l p l') (hdone : p.succeeded = true) :
    Published s p.document l l' := by
  obtain ⟨-, hpublished⟩ | ⟨hfailed, -⟩ := h.published_or_cutShort
  · exact hpublished
  · rw [hdone] at hfailed
    cases hfailed

/-- A publication leaves all ways and links alone, whether it succeeds or not. -/
theorem leaves (h : Attempt s l p l') (hname : Path.IsPlain p.document.name)
    (hunlinked : Unlinked s l p.document.name) : Leaves s l l' := by
  obtain ⟨-, hpublished⟩ | ⟨-, hcut⟩ := h.published_or_cutShort
  · exact hpublished.leaves hname hunlinked
  · exact hcut.leaves hname hunlinked

/-- It leaves every file alone but its temporary one, and the file of its name if it succeeds. -/
theorem file_iff (h : Attempt s l p l') (hname : Path.IsPlain p.document.name)
    (hunlinked : Unlinked s l p.document.name)
    (hplace : ∀ top, LeadsTo l s.directory top → place ≠ tempIn top p.document.name
      ∧ (p.succeeded = true → place ≠ recordIn top p.document.name)) :
    l'.tree.find place = some (.file bytes) ↔ l.tree.find place = some (.file bytes) := by
  obtain ⟨hdone, hpublished⟩ | ⟨-, hcut⟩ := h.published_or_cutShort
  · exact hpublished.file_iff hname hunlinked (fun top hleads => (hplace top hleads).1)
      fun top hleads => (hplace top hleads).2 hdone
  · exact hcut.file_iff hname hunlinked fun top hleads => (hplace top hleads).1

/-- No file of another name is changed, and none at all when the publication fails. -/
theorem keeps (h : Attempt s l p l') (hname : Path.IsPlain p.document.name)
    (hunlinked : Unlinked s l p.document.name) (hother : Path.IsPlain name)
    (hwhich : p.succeeded = false ∨ name ≠ p.document.name) :
    Keeps s name [p.document.name] l l' := by
  refine keeps_of_file_iff hother (h.leaves hname hunlinked) (by simpa using hunlinked)
    fun place hplace bytes => h.file_iff hname hunlinked fun top hleads => ?_
  obtain ⟨htemp, hrecord⟩ := hplace _ (List.mem_singleton_self _) top hleads
  refine ⟨htemp, fun hdone => hrecord (Ne.symm ?_)⟩
  exact hwhich.resolve_left (by simp [hdone])

/-- So the file of a name has what it had. -/
theorem holds (h : Attempt s l p l') (hname : Path.IsPlain p.document.name)
    (hunlinked : Unlinked s l p.document.name)
    (hwhich : p.succeeded = false ∨ name ≠ p.document.name) (hholds : Holds s l name bytes top) :
    Holds s l' name bytes top := by
  have hways := (h.leaves hname hunlinked).ways
  refine ⟨hholds.root.keeps hways, hholds.fits, (hways.links _).trans hholds.link,
    (h.file_iff hname hunlinked fun top' _ => ⟨recordIn_ne_tempIn top, fun hdone => ?_⟩).mpr
      hholds.file⟩
  exact recordIn_ne (hwhich.resolve_left (by simp [hdone])) top

end Attempt

namespace History

variable {past : List Publication}

/-- Publications leave all ways and links alone. -/
theorem leaves (h : History s l past l')
    (hunlinked : ∀ p ∈ past, Unlinked s l p.document.name) : Leaves s l l' := by
  induction h with
  | start => exact .refl s l
  | @attempt past p l₁ l₂ h hname hnext ih =>
    have hleaves := ih fun q hq => hunlinked q (List.mem_append_left _ hq)
    exact hleaves.trans (hnext.leaves hname (hleaves.unlinked (hunlinked p (by simp))))

/-- They leave every file alone but the temporary ones, and the files of the names that they
succeed under. -/
theorem file_iff (h : History s l past l')
    (hunlinked : ∀ p ∈ past, Unlinked s l p.document.name)
    (hplace : ∀ p ∈ past, ∀ top, LeadsTo l s.directory top → place ≠ tempIn top p.document.name
      ∧ (p.succeeded = true → place ≠ recordIn top p.document.name)) :
    l'.tree.find place = some (.file bytes) ↔ l.tree.find place = some (.file bytes) := by
  induction h with
  | start => exact Iff.rfl
  | @attempt past p l₁ l₂ h hname hnext ih =>
    have hearlier : ∀ q ∈ past, Unlinked s l q.document.name := fun q hq =>
      hunlinked q (List.mem_append_left _ hq)
    have hleaves := h.leaves hearlier
    have hstep : l₂.tree.find place = some (.file bytes)
        ↔ l₁.tree.find place = some (.file bytes) :=
      hnext.file_iff hname (hleaves.unlinked (hunlinked p (by simp)))
        fun top hleads => hplace p (by simp) top (hleaves.ways.leadsTo_iff.mp hleads)
    exact hstep.trans (ih hearlier fun q hq => hplace q (List.mem_append_left _ hq))

/-- As long as nothing was published in full under a name, its file is what it was. -/
theorem keeps (h : History s l past l')
    (hunlinked : ∀ p ∈ past, Unlinked s l p.document.name) (hname : Path.IsPlain name)
    (hnone : lastGood past name = none) :
    Keeps s name (past.map (·.document.name)) l l' := by
  refine keeps_of_file_iff hname (h.leaves hunlinked) ?_ fun place hplace bytes =>
    h.file_iff hunlinked fun p hp top hleads => ?_
  · simpa using hunlinked
  · obtain ⟨htemp, hrecord⟩ := hplace _ (List.mem_map_of_mem hp) top hleads
    exact ⟨htemp, fun hdone => hrecord (ne_of_lastGood_eq_none hnone hp hdone)⟩

end History

end Tenure.Status.Sink
