import Tenure.Lease.Script
import Tenure.Proofs.Store.Independence

/-!
# `Tenure.Proofs.Store.Failure`: what a failed call leaves behind

A call of a store in a directory makes the directory of its key, opens the lock file,
reads the record, and writes a new one beside it, which then takes its place. It may fail
at each of these steps, and what it has done before stays done. None of it is a record:
the record is replaced in the last step only, and that step is the renaming of a file.

`CutShort` lists the trees that a call goes through before that step, also those that it
leaves when it does not get any further because of a crash or a full disk. `Spares` says
that two trees have the same record files. `CutShort.spares` puts the two together, and a
call that is failed is one that was cut short (`cutShort_of_failed`).

A record that is not one is safe for the same reason: it cannot be read, so no call about
any key gets to the last step with it (`Later.find_corrupt`). Every call about its key is
refused. It is told that the record is corrupt, unless it does not even get to read it,
since the lock file cannot be opened when there is a directory in its place.

* `failures_spare_records`: all of this, for any sound tree and any key.
-/

set_option autoImplicit false

namespace Tenure.Store.Directory

open FileTree

variable {d : Directory} {key : Key} {request : Request} {t t' t'' t₁ : FileTree}
  {absolute : Bool} {way dir place : List String} {name temp file path : String}

/-! ### Where records are -/

/-- Where a record can be: under a name that ends like that of a record. -/
def IsRecordPlace (place : List String) : Prop := ∃ dir name, place = recordIn dir name

/-- The record files of two trees are the same, and have the same bytes. -/
def Spares (t t' : FileTree) : Prop :=
  ∀ place bytes, IsRecordPlace place →
    (t'.find place = some (.file bytes) ↔ t.find place = some (.file bytes))

/-- A tree spares its own records. -/
theorem Spares.refl (t : FileTree) : Spares t t := fun _ _ _ => Iff.rfl

/-- Two changes that spare the records spare them together. -/
theorem Spares.trans (h : Spares t t') (h' : Spares t' t'') : Spares t t'' :=
  fun place bytes hplace => (h' place bytes hplace).trans (h place bytes hplace)

/-- A path leads to its last part in a directory. -/
theorem place_of_resolve (hsound : t.IsSound)
    (hpath : Path.Below (Path.origin absolute) (way ++ [file]) path)
    (hresolve : t.resolve path = .ok place) :
    ∃ dir, t.walk (t.start absolute) way = .ok dir ∧ t.find dir = some .directory
      ∧ t.enter dir file = .ok place := by
  rw [(hsound.isRoot absolute).resolve hpath] at hresolve
  obtain ⟨dir, hwalk, henter⟩ := walk_concat hresolve
  exact ⟨dir, hwalk, enter_ok henter, henter⟩

/-- A name in a directory that was entered. -/
theorem place_of_enter (henter : t.enter dir file = .ok place) (hplain : file ≠ "..") :
    place = dir ++ [file] ∧ file.utf8ByteSize ≤ nameLimit := by
  rw [enter_plain (enter_ok henter) hplain] at henter
  split at henter
  · cases henter
  · rename_i hfits
    exact ⟨(Except.ok.inj henter).symm, Nat.not_lt.mp hfits⟩

/-- Where the files of a key are, when its record can be reached. -/
structure Leads (t : FileTree) (d : Directory) (key : Key) (absolute : Bool) (way : List String)
    (name temp : String) (dir : List String) : Prop where
  layout : Layout d key absolute way name temp
  walk : t.walk (t.start absolute) way = .ok dir
  directory : t.find dir = some .directory
  fits : (name ++ ".lock").utf8ByteSize ≤ nameLimit

/-- A record whose path resolves has its files where the layout of its key says. -/
theorem exists_leads (hsound : t.IsSound) (hresolve : t.resolve (d.recordPath key) = .ok place) :
    ∃ absolute way name temp dir, Leads t d key absolute way name temp dir
      ∧ place = recordIn dir name := by
  have hclean := clean_of_resolve hresolve
  rw [recordPath_eq, String.toList_append] at hclean
  obtain ⟨absolute, way, name, temp, hlayout⟩ : ∃ absolute way name temp,
      Layout d key absolute way name temp := by
    refine exists_layout ?_
    rw [lockPath_eq, String.toList_append]
    intro hmem
    rcases List.mem_append.mp hmem with hmem | hmem
    · exact hclean (List.mem_append_left _ hmem)
    · exact Path.isSuffix_lock.nul hmem
  obtain ⟨dir, hwalk, hdir, henter⟩ := place_of_resolve hsound hlayout.record hresolve
  obtain ⟨hplace, hfits⟩ := place_of_enter henter (plain_of_suffix (.inl rfl))
  rw [String.utf8ByteSize_append] at hfits
  have hlock : (name ++ ".lock").utf8ByteSize ≤ nameLimit := by
    rw [String.utf8ByteSize_append]
    exact hfits
  exact ⟨absolute, way, name, temp, dir, ⟨hlayout, hwalk, hdir, hlock⟩, hplace⟩

/-- What is read at a path is in the file where the path leads. -/
theorem find_of_read {bytes : List UInt8} (hresolve : t.resolve path = .ok place)
    (hread : t.read path = .ok bytes) : t.find place = some (.file bytes) := by
  rw [read_of_resolve hresolve] at hread
  split at hread
  · cases hread
  · cases hread
  · rename_i content hfile
    rw [hfile, Except.ok.inj hread]

/-- The record of every key is in a record place. -/
theorem isRecordPlace_of_resolve (hsound : t.IsSound)
    (hresolve : t.resolve (d.recordPath key) = .ok place) : IsRecordPlace place := by
  obtain ⟨-, -, name, -, dir, -, hplace⟩ := exists_leads hsound hresolve
  exact ⟨dir, name, hplace⟩

/-- A lock file is never where a record can be. -/
theorem lock_notRecordPlace : ¬ IsRecordPlace (dir ++ [name ++ ".lock"]) := by
  rintro ⟨other, name', heq⟩
  have hlast := List.append_inj_right' heq rfl
  exact append_ne 'k' 'n' rfl rfl (by decide) (List.cons.inj hlast).1

/-- A temporary file is never where a record can be. -/
theorem Layout.temp_notRecordPlace (hlayout : Layout d key absolute way name temp) :
    ¬ IsRecordPlace (dir ++ [temp]) := by
  rintro ⟨other, name', heq⟩
  exact hlayout.recordIn_ne heq.symm

/-! ### What a call does before it replaces a record -/

/-- A file that is no record is put in its place. -/
theorem spares_put (content : List UInt8) (hplace : ¬ IsRecordPlace place) :
    Spares t (t.put place (.file content)) := by
  intro other bytes hother
  have hne : other ≠ place := fun heq => hplace (heq ▸ hother)
  rw [t.find_put_other place other _ hne]

/-- Making a directory spares the records. -/
theorem makeDirectory_spares {part : String} {next : List String}
    (h : t.makeDirectory place part = .ok (t', next)) : Spares t t' := by
  unfold makeDirectory at h
  cases henter : t.enter place part with
  | error e => simp [henter, bind, Except.bind] at h
  | ok entered =>
    simp only [henter, bind, Except.bind] at h
    split at h
    · cases h
      exact .refl t
    · cases h
    · -- nothing was there, so no record was either
      rename_i habsent
      cases h
      have hne : next ≠ [] := fun heq => by simp [heq, find] at habsent
      intro other bytes hother
      -- a directory is no record file, and the other places are as they were
      by_cases heq : other = next
      · rw [heq, t.find_put_self next _ hne, habsent]
        simp
      · rw [t.find_put_other next other _ heq]

/-- Making directories down a walk spares the records, however far it gets. -/
theorem makeAll_spares (t : FileTree) (place names : List String) :
    Spares t (t.makeAll place names).1 := by
  induction names generalizing t place with
  | nil => exact .refl t
  | cons part names ih =>
    simp only [makeAll]
    cases hmake : t.makeDirectory place part with
    | error e => exact .refl t
    | ok made => exact (makeDirectory_spares hmake).trans (ih made.1 made.2)

/-- Creating the directories of a path spares the records, also when it fails half way. -/
theorem createDirectories_spares (t : FileTree) (path : String) :
    Spares t (t.createDirectories path).1 := by
  unfold createDirectories
  split
  · exact .refl t
  · rcases makeWay_cases t (if Path.isAbsolute path then [] else t.working) (Path.parts path) with
      heq | heq <;> rw [heq]
    · exact .refl t
    · exact makeAll_spares t _ _

/-- Opening the lock file of a key makes no record. -/
theorem touch_spares (hsound : t.IsSound) (h : t.touch (d.lockPath key) = .ok t') :
    Spares t t' := by
  cases hresolve : t.resolve (d.lockPath key) with
  | error e => simp [touch, hresolve, bind, Except.bind] at h
  | ok place =>
    obtain ⟨absolute, way, name, temp, hlayout⟩ := exists_layout (clean_of_resolve hresolve)
    obtain ⟨dir, -, -, henter⟩ := place_of_resolve hsound hlayout.lock hresolve
    obtain ⟨rfl, -⟩ := place_of_enter henter (plain_of_suffix (.inr rfl))
    simp only [touch, hresolve, bind, Except.bind] at h
    split at h
    · cases h
    · cases h
      exact .refl t
    · cases h
      exact spares_put [] lock_notRecordPlace

/-- Preparing a key spares the records. -/
theorem prepare_spares (d : Directory) (key : Key) (hsound : t.IsSound) :
    Spares t (d.prepare key t).1 := by
  have hmade := createDirectories_spares t (Path.parent (d.recordPath key))
  have hsound₁ := (createDirectories_evolves t (Path.parent (d.recordPath key))).sound hsound
  unfold prepare
  generalize t.createDirectories (Path.parent (d.recordPath key)) = made at hmade hsound₁ ⊢
  obtain ⟨t₁, result⟩ := made
  cases result with
  | error e => exact hmade
  | ok u =>
    cases htouch : t₁.touch (d.lockPath key) with
    | error e => simpa only [htouch] using hmade
    | ok t₂ => simpa only [htouch] using hmade.trans (touch_spares hsound₁ htouch)

/-- A call about a key that cannot be prepared fails with that error, and leaves what preparing has
left. -/
theorem answer_unprepared {e : Error} (h : d.prepare key t = (t₁, .error e)) :
    d.answer t key request = (t₁, .failed e) := by
  unfold answer
  rw [h]

/-- What a call may leave that does not get to its last step. -/
inductive CutShort (d : Directory) (key : Key) (t : FileTree) : FileTree → Prop
  /-- Some of the directories on the way are made. -/
  | making (count : Nat) : CutShort d key t
      (t.makeAll (t.start (Path.isAbsolute (Path.parent (d.recordPath key))))
        ((Path.parts (Path.parent (d.recordPath key))).take count)).1
  /-- All directories are made, or one of them cannot be, and so is the lock file. -/
  | preparing : CutShort d key t (d.prepare key t).1
  /-- The temporary file is written, or part of it. -/
  | staging {t₁ t' : FileTree} {content : List UInt8} (hprepare : d.prepare key t = (t₁, .ok ()))
      (hwrite : t₁.write (Path.temp (d.recordPath key)) content = .ok t') : CutShort d key t t'

/-- Writing the temporary file of a key writes no record. -/
theorem write_spares {content : List UInt8} (hsound : t.IsSound)
    (hlayout : Layout d key absolute way name temp)
    (hwrite : t.write (Path.temp (d.recordPath key)) content = .ok t') : Spares t t' := by
  obtain ⟨place, hresolve, hfile, rfl⟩ := exists_of_write hwrite
  obtain ⟨dir, -, hdir, henter⟩ := place_of_resolve hsound hlayout.beside hresolve
  by_cases hup : temp = ".."
  · -- the parent of a directory is a directory, to which nothing is written
    have hplace : place = dir.dropLast := by
      rw [hup] at henter
      simpa [enter, hdir] using henter.symm
    rw [hplace] at hfile
    exact absurd (hsound.parents dir hdir) hfile
  · obtain ⟨rfl, -⟩ := place_of_enter henter hup
    exact spares_put content hlayout.temp_notRecordPlace

/-- A call that does not get to its last step leaves every record as it is. -/
theorem CutShort.spares (h : CutShort d key t t') (hsound : t.IsSound) : Spares t t' := by
  cases h with
  | making count => exact makeAll_spares t _ _
  | preparing => exact prepare_spares d key hsound
  | staging hprepare hwrite =>
    obtain ⟨absolute, way, name, temp, dir, hlayout, -⟩ :=
      exists_inPlace_of_prepare hsound hprepare
    have hspares := prepare_spares d key hsound
    have hevolves := d.prepare_evolves key t
    rw [hprepare] at hspares hevolves
    exact hspares.trans (write_spares (hevolves.sound hsound) hlayout hwrite)

/-- A call is refused when not everything can be made for its key, and goes on in the
directory of the key otherwise. -/
theorem exists_cutShort (hsound : t.IsSound) (d : Directory) (key : Key) (request : Request) :
    ∃ t₁, CutShort d key t t₁ ∧ ((∃ e, d.answer t key request = (t₁, .failed e))
      ∨ ∃ absolute way name temp dir, Layout d key absolute way name temp
        ∧ Treated (recordIn dir name) (dir ++ [temp]) t₁ (d.answer t key request).1
          (d.answer t key request).2) := by
  have hcut : CutShort d key t (d.prepare key t).1 := .preparing
  have hsound₁ : (d.prepare key t).1.IsSound := (d.prepare_evolves key t).sound hsound
  cases hprepare : d.prepare key t with
  | mk t₁ result =>
    rw [hprepare] at hcut hsound₁
    cases result with
    | error e => exact ⟨t₁, hcut, .inl ⟨e, answer_unprepared hprepare⟩⟩
    | ok u =>
      obtain ⟨absolute, way, name, temp, dir, hlayout, hplace⟩ :=
        exists_inPlace_of_prepare hsound hprepare
      have hanswer : d.answer t key request = d.answer t₁ key request := by
        unfold answer
        rw [hprepare, hplace.prepare hsound₁ hlayout]
      rw [hanswer]
      exact ⟨t₁, hcut, .inr ⟨absolute, way, name, temp, dir, hlayout,
        hplace.answer_treated hsound₁ hlayout request⟩⟩

/-- A call that is failed has not got to its last step. -/
theorem cutShort_of_failed (hsound : t.IsSound) {e : Error}
    (hfailed : (d.answer t key request).2 = .failed e) :
    CutShort d key t (d.answer t key request).1 := by
  obtain ⟨t₁, hcut, ⟨e, hanswer⟩ | ⟨absolute, way, name, temp, dir, hlayout, htreated⟩⟩ :=
    exists_cutShort hsound d key request
  · rw [hanswer]
    exact hcut
  · generalize d.answer t key request = answer at htreated hfailed ⊢
    obtain ⟨t', reply⟩ := answer
    cases htreated with
    | left hreply => exact hcut
    | written hcontent hversion hchange hfind => cases hfailed

/-! ### What is no record -/

/-- What is in the place of a record and is none stays there, whatever is asked about
whichever key. -/
theorem answer_find_corrupt (hsound : t.IsSound) {bytes : List UInt8} (hplace : IsRecordPlace place)
    (hfile : t.find place = some (.file bytes)) (hcorrupt : Versioned.parse? bytes = none) :
    (d.answer t key request).1.find place = some (.file bytes) := by
  obtain ⟨t₁, hcut, hcases⟩ := exists_cutShort hsound d key request
  have hfile₁ := (hcut.spares hsound place bytes hplace).mpr hfile
  rcases hcases with ⟨e, hanswer⟩ | ⟨absolute, way, name, temp, dir, hlayout, htreated⟩
  · rw [hanswer]
    exact hfile₁
  · generalize d.answer t key request = answer at htreated ⊢
    obtain ⟨t', reply⟩ := answer
    cases htreated with
    | left hreply => exact hfile₁
    | written hcontent hversion hchange hfind =>
      -- what was replaced has been read, so it was something else
      have hother : place ≠ recordIn dir name := by
        rintro rfl
        simp [contentAt, hfile₁, hcorrupt] at hcontent
      have htemp : place ≠ dir ++ [temp] := fun heq =>
        hlayout.temp_notRecordPlace (heq ▸ hplace)
      rw [hchange.others place (by simp) (by simp [hother, htemp])]
      exact hfile₁

/-- A record file that is no record stays as it is, whatever calls are made. -/
theorem Later.find_corrupt (h : Later t t') (hsound : t.IsSound) {bytes : List UInt8}
    (hplace : IsRecordPlace place) (hfile : t.find place = some (.file bytes))
    (hcorrupt : Versioned.parse? bytes = none) : t'.find place = some (.file bytes) := by
  induction h with
  | refl => exact hfile
  | call h' d key request ih =>
    exact answer_find_corrupt (h'.evolves.sound hsound) hplace ih hcorrupt

/-- Why a call is refused about a key whose record is none. -/
def refusal (d : Directory) (key : Key) (t : FileTree) : Error :=
  if t.isDirectory (d.lockPath key) then .io .isDirectory else .corrupt

/-- The files of a key stay where they are as the tree evolves. -/
theorem Leads.keeps (h : Leads t d key absolute way name temp dir) (hevolves : Evolves t t') :
    Leads t' d key absolute way name temp dir := by
  obtain ⟨directories, files, hchange⟩ := hevolves.changes
  refine ⟨h.layout, ?_, hchange.kept dir h.directory, h.fits⟩
  rw [hchange.start_eq absolute]
  exact walk_keeps hchange.kept h.walk

/-- A path to the record or the lock file of a key leads to its place. -/
theorem Leads.resolve_suffix (h : Leads t d key absolute way name temp dir) (hsound : t.IsSound)
    {suffix : String} (hsuffix : suffix = ".json" ∨ suffix = ".lock")
    (hpath : Path.Below (Path.origin absolute) (way ++ [name ++ suffix]) path) :
    t.resolve path = .ok (dir ++ [name ++ suffix]) :=
  resolve_suffix_of_leads hsound h.walk h.directory h.fits hsuffix hpath

/-- The path of the record of a key leads to its place. -/
theorem Leads.resolve_record (h : Leads t d key absolute way name temp dir) (hsound : t.IsSound) :
    t.resolve (d.recordPath key) = .ok (recordIn dir name) :=
  h.resolve_suffix hsound (.inl rfl) h.layout.record

/-- A path that resolves names a directory just where there is one at its place. -/
theorem isDirectory_iff (hresolve : t.resolve path = .ok place) :
    t.isDirectory path = true ↔ t.find place = some .directory := by
  simp only [isDirectory, lookup, hresolve, bind, Except.bind]
  cases t.find place with
  | none => simp [throw, throwThe, MonadExceptOf.throw]
  | some node => cases node <;> simp [pure, Except.pure]

/-- A call about a key whose record is none gets as far as the lock file or the record. -/
theorem Leads.answer_corrupt (h : Leads t d key absolute way name temp dir) (hsound : t.IsSound)
    {bytes : List UInt8} (hfile : t.find (recordIn dir name) = some (.file bytes))
    (hcorrupt : Versioned.parse? bytes = none) (request : Request) :
    (d.answer t key request).2 = .failed (refusal d key t) := by
  have hlock := h.resolve_suffix hsound (.inr rfl) h.layout.lock
  have hmake : t.createDirectories (Path.parent (d.recordPath key)) = (t, .ok ()) := by
    rw [h.layout.up, makeWay_of_leads h.walk h.directory]
  by_cases hdirectory : t.find (dir ++ [name ++ ".lock"]) = some .directory
  · -- the lock file cannot be opened
    have htouch : t.touch (d.lockPath key) = .error .isDirectory := by
      simp only [touch, hlock, bind, Except.bind, hdirectory]
      rfl
    have hprepare : d.prepare key t = (t, .error (.io .isDirectory)) := by
      unfold prepare
      simp only [hmake, htouch]
    rw [answer_unprepared hprepare, refusal, if_pos ((isDirectory_iff hlock).mpr hdirectory)]
  · obtain ⟨-, hthere⟩ | ⟨t₂, htouch, hchange⟩ := touch_cases hlock (by simp)
    · exact absurd hthere hdirectory
    have hprepare : d.prepare key t = (t₂, .ok ()) := by
      unfold prepare
      simp only [hmake, htouch]
    have hevolves : Evolves t t₂ := touch_evolves htouch
    have hspares := touch_spares hsound htouch
    have hfile₂ := (hspares (recordIn dir name) bytes ⟨dir, name, rfl⟩).mpr hfile
    -- the lock file can be opened, but then the record file is found to be none
    have hread : readRecord t₂ (d.recordPath key) = .error .corrupt := by
      have hresolve := (h.keeps hevolves).resolve_record (hevolves.sound hsound)
      rw [readRecord_of_resolve hresolve, contentAt, hfile₂]
      simp only [hcorrupt]
    unfold answer
    simp only [hprepare, hread]
    rw [refusal, if_neg fun hthere => hdirectory ((isDirectory_iff hlock).mp hthere)]

section

open Lease

variable {client : Client} {now : Moment} {e : Error}

/-- An attempt to take the lock ends with the error of its lookup. -/
theorem acquire_failed (h : (d.answer t client.key .get).2 = .failed e) :
    (Seat.acquire ⟨client, .healthy⟩ ⟨.directory d, t⟩ now).2.2 = .error e := by
  simp [Seat.acquire, Seat.acquireFrom, Link.deliver_healthy, Attempt.request, Shared.answer, h,
    Client.answer]

/-- So does an attempt to give it up. -/
theorem release_failed (h : (d.answer t client.key .get).2 = .failed e) :
    (Seat.release ⟨client, .healthy⟩ ⟨.directory d, t⟩ now).2.2 = .error e := by
  simp [Seat.release, Seat.releaseFrom, Link.deliver_healthy, Surrender.request, Shared.answer, h,
    Client.answerRelease]

/-- Nothing can be done about a key. -/
structure Refused (d : Directory) (key : Key) (t : FileTree) (e : Error) : Prop where
  calls : ∀ request, (d.answer t key request).2 = .failed e
  acquire : ∀ (client : Client) (now : Moment), client.key = key →
    (Seat.acquire ⟨client, .healthy⟩ ⟨.directory d, t⟩ now).2.2 = .error e
  release : ∀ (client : Client) (now : Moment), client.key = key →
    (Seat.release ⟨client, .healthy⟩ ⟨.directory d, t⟩ now).2.2 = .error e

/-- A key about which every call fails is refused to clients: they get the same error. -/
theorem refused_of_calls (h : ∀ request, (d.answer t key request).2 = .failed e) :
    Refused d key t e where
  calls := h
  acquire _ _ hkey := acquire_failed (hkey ▸ h .get)
  release _ _ hkey := release_failed (hkey ▸ h .get)

end

/-- Whatever the tree of files looks like and however far a call gets: a call that is failed,
and one that is cut short before its last step, leaves the bytes of every record as they
are. A record file whose bytes are no record stays as it is whatever is asked of any store
about any key, and as long as it is there nothing can be done about its key: the record is
corrupt, or the lock file is a directory and cannot be opened. -/
theorem failures_spare_records (hsound : t.IsSound) (d : Directory) (key : Key) :
    (∀ (other : Directory) key place, t.resolve (other.recordPath key) = .ok place →
      IsRecordPlace place)
    ∧ (∀ request e, (d.answer t key request).2 = .failed e →
      Spares t (d.answer t key request).1)
    ∧ (∀ t', CutShort d key t t' → Spares t t')
    ∧ ∀ bytes, t.read (d.recordPath key) = .ok bytes → Versioned.parse? bytes = none →
      ∀ t', Later t t' → t'.read (d.recordPath key) = .ok bytes
        ∧ Refused d key t' (refusal d key t') := by
  refine ⟨fun other key place => isRecordPlace_of_resolve hsound,
    fun request e hfailed => (cutShort_of_failed hsound hfailed).spares hsound,
    fun t' hcut => hcut.spares hsound, fun bytes hread hcorrupt t' hlater => ?_⟩
  cases hresolve : t.resolve (d.recordPath key) with
  | error e => simp [FileTree.read, lookup, hresolve, bind, Except.bind] at hread
  | ok place =>
    obtain ⟨absolute, way, name, temp, dir, hleads, rfl⟩ := exists_leads hsound hresolve
    have hfile := find_of_read hresolve hread
    have hfile' := hlater.find_corrupt hsound ⟨dir, name, rfl⟩ hfile hcorrupt
    have hleads' := hleads.keeps hlater.evolves
    have hsound' := hlater.evolves.sound hsound
    refine ⟨?_, refused_of_calls fun request => ?_⟩
    · rw [read_of_resolve (hleads'.resolve_record hsound'), hfile']
    · exact hleads'.answer_corrupt hsound' hfile' hcorrupt request

/-- A tree with one record file that is none. -/
def spoilt : FileTree := FileTree.empty.place "/locks/ns/lock.json" [110, 111]

/-- The tree used as an example is sound. -/
theorem isSound_spoilt : spoilt.IsSound := (place_evolves _ _ _).sound isSound_empty

/-- A result that is no error, in a form that can be computed. -/
theorem eq_ok_of_toOption {ε α : Type} {result : Except ε α} {value : α}
    (h : result.toOption = some value) : result = .ok value := by
  cases result with
  | error e => cases h
  | ok other =>
    cases h
    rfl

/-- A record that is none, two calls about other keys before, and every call refused. -/
theorem failures_spare_spoilt :
    let d : Directory := ⟨"/locks"⟩
    let key : Key := ⟨"ns", "lock"⟩
    let record : Record := ⟨"pod-a", 15000, 10, 10, 0⟩
    let t := (d.answer (d.answer spoilt ⟨"ns", "other"⟩ (.create record)).1 ⟨"a/..", "b"⟩ .get).1
    Spares spoilt (d.answer spoilt key (.create record)).1
      ∧ t.read (d.recordPath key) = .ok [110, 111] ∧ Refused d key t .corrupt := by
  intro d key record t
  obtain ⟨-, hfailed, -, hcorrupt⟩ := failures_spare_records isSound_spoilt d key
  have hlater : Later spoilt t := .call (.call .refl d _ _) d _ _
  have hrefusal : refusal d key t = .corrupt := by decide +kernel
  refine ⟨hfailed (.create record) .corrupt (by decide +kernel), ?_⟩
  rw [← hrefusal]
  exact hcorrupt [110, 111] (eq_ok_of_toOption (by decide +kernel)) (by decide +kernel) t hlater

/-- Where a directory stands in the place of the lock file, a record that is none is not what
is complained of. -/
theorem not_corrupt_of_locked : ¬ ∀ (t : FileTree), t.IsSound → ∀ (d : Directory) key bytes,
    t.read (d.recordPath key) = .ok bytes → Versioned.parse? bytes = none →
      ∀ request, (d.answer t key request).2 = .failed .corrupt := by
  intro hall
  have hsound : (spoilt.createDirectories "/locks/ns/lock.lock").1.IsSound :=
    (createDirectories_evolves _ _).sound isSound_spoilt
  have hcorrupt := hall _ hsound ⟨"/locks"⟩ ⟨"ns", "lock"⟩ [110, 111]
    (eq_ok_of_toOption (by decide +kernel)) (by decide +kernel) .get
  have hio : (answer ⟨"/locks"⟩ (spoilt.createDirectories "/locks/ns/lock.lock").1 ⟨"ns", "lock"⟩
      .get).2 = .failed (.io .isDirectory) := by decide +kernel
  rw [hio] at hcorrupt
  cases hcorrupt

end Tenure.Store.Directory
