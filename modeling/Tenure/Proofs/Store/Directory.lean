import Tenure.Store.Directory
import Tenure.Proofs.FileTree.Walk
import Tenure.Proofs.Record.Codec
import Tenure.Proofs.Store.Decided

/-!
# `Tenure.Proofs.Store.Directory`: how a store in a directory answers

The record of a key is at one place below the root of the store; a lock file and a
temporary file stand beside it, in the directory of the namespace. `Answered` lists
what a call can do to the tree: it fails on the way and leaves the record alone, it
finds something that is no record, or it decides the call as every store does, and
writes the file of the new record if there is one.

* `answer_answered`: every call about a plain key is one of these.
* `recordPlace_injective`, `recordPlace_ne_lockPlace` and `recordPlace_ne_tempPlace`:
  the files of all keys stay apart.
* `Answered.changesOnly`: a call touches the places of its own key only.
* `openAt_isRoot`: the directory of a store that was opened is such a root.
-/

set_option autoImplicit false

namespace Tenure

/-- A key whose namespace and name each name one thing in a directory. -/
structure Key.IsPlain (key : Key) : Prop where
  space : Path.IsPlain key.space
  name : Path.IsPlain key.name

instance (key : Key) : Decidable key.IsPlain :=
  decidable_of_iff (Path.IsPlain key.space ∧ Path.IsPlain key.name)
    ⟨fun ⟨space, name⟩ => ⟨space, name⟩, fun h => ⟨h.space, h.name⟩⟩

namespace Store.Directory

open FileTree

/-! ### Places -/

/-- The directory of the records of a namespace. -/
def spacePlace (top : List String) (key : Key) : List String := top ++ [key.space]

/-- The place of a file of a key. -/
def filePlace (top : List String) (key : Key) (suffix : String) : List String :=
  top ++ [key.space, key.name ++ suffix]

def recordPlace (top : List String) (key : Key) : List String := filePlace top key ".json"

def lockPlace (top : List String) (key : Key) : List String := filePlace top key ".lock"

def tempPlace (top : List String) (key : Key) : List String := filePlace top key ".json.tmp"

section

variable {top : List String} {key other : Key}

/-- Two files of plain keys are in one place only when namespaces and file names agree. -/
theorem filePlace_inj {suffix suffix' : String}
    (h : filePlace top key suffix = filePlace top other suffix') :
    key.space = other.space ∧ key.name ++ suffix = other.name ++ suffix' := by
  have htail := List.append_cancel_left h
  simp only [List.cons.injEq, and_true] at htail
  exact htail

/-- Different keys have different record files. -/
theorem recordPlace_injective (h : recordPlace top key = recordPlace top other) : key = other := by
  obtain ⟨hspace, hname⟩ := filePlace_inj h
  obtain ⟨space, name⟩ := key
  obtain ⟨space', name'⟩ := other
  obtain rfl : space = space' := hspace
  obtain rfl : name = name' := String.append_left_inj _ |>.mp hname
  rfl

/-- The file of a key is never where the directory of a namespace is. -/
theorem filePlace_ne_spacePlace (suffix : String) :
    filePlace top key suffix ≠ spacePlace top other := by
  intro h
  have hlength := congrArg List.length h
  simp [filePlace, spacePlace] at hlength

/-- Texts that end in different characters differ. -/
theorem append_ne {name name' suffix suffix' : String} (c c' : Char)
    (h : suffix.toList.getLast? = some c) (h' : suffix'.toList.getLast? = some c') (hne : c ≠ c') :
    name ++ suffix ≠ name' ++ suffix' := by
  intro heq
  have hlast := congrArg (fun s => s.toList.getLast?) heq
  simp only [String.toList_append, List.getLast?_append, h, h', Option.some_or] at hlast
  exact hne (Option.some.inj hlast)

/-- The record of a key is never where the lock file of a key is. -/
theorem recordPlace_ne_lockPlace : recordPlace top key ≠ lockPlace top other := fun h =>
  append_ne 'n' 'k' rfl rfl (by decide) (filePlace_inj h).2

/-- The record of a key is never where the temporary file of a key is. -/
theorem recordPlace_ne_tempPlace : recordPlace top key ≠ tempPlace top other := fun h =>
  append_ne 'n' 'p' rfl rfl (by decide) (filePlace_inj h).2

end

/-! ### Paths -/

section

variable {d : Directory} {key : Key}

/-- The directory of a plain key is one step below the root. -/
theorem below_spacePath (hroot : '\x00' ∉ d.root.toList) (hkey : key.IsPlain) :
    Path.Below d.root [key.space] (d.spacePath key) := Path.below_join hroot hkey.space

/-- The record file of a plain key has a plain name. -/
theorem plain_record (hkey : key.IsPlain) : Path.IsPlain (key.name ++ ".json") :=
  Path.plain_append hkey.name (by decide) (by decide) (by decide)

/-- The lock file of a plain key has a plain name. -/
theorem plain_lock (hkey : key.IsPlain) : Path.IsPlain (key.name ++ ".lock") :=
  Path.plain_append hkey.name (by decide) (by decide) (by decide)

/-- The temporary file of a plain key has a plain name. -/
theorem plain_temp (hkey : key.IsPlain) : Path.IsPlain (key.name ++ ".json.tmp") :=
  Path.plain_append hkey.name (by decide) (by decide) (by decide)

/-- The record file of a plain key is two steps below the root. -/
theorem below_recordPath (hroot : '\x00' ∉ d.root.toList) (hkey : key.IsPlain) :
    Path.Below d.root [key.space, key.name ++ ".json"] (d.recordPath key) :=
  (below_spacePath hroot hkey).join (plain_record hkey)

/-- The lock file of a plain key is two steps below the root. -/
theorem below_lockPath (hroot : '\x00' ∉ d.root.toList) (hkey : key.IsPlain) :
    Path.Below d.root [key.space, key.name ++ ".lock"] (d.lockPath key) :=
  (below_spacePath hroot hkey).join (plain_lock hkey)

/-- The parent of the record file of a plain key is the directory of its namespace. -/
theorem below_parent (hroot : '\x00' ∉ d.root.toList) (hkey : key.IsPlain) :
    Path.Below d.root [key.space] (Path.parent (d.recordPath key)) := by
  have hpath : Path.Below d.root ([key.space] ++ [key.name ++ ".json"]) (d.recordPath key) :=
    below_recordPath hroot hkey
  exact hpath.parent hroot (by simp) (by simpa using hkey.space)

/-- The temporary file of a plain key is two steps below the root. -/
theorem below_temp (hroot : '\x00' ∉ d.root.toList) (hkey : key.IsPlain) :
    Path.Below d.root [key.space, key.name ++ ".json.tmp"] (Path.temp (d.recordPath key)) := by
  have hpath : Path.Below d.root ([key.space] ++ [key.name ++ ".json"]) (d.recordPath key) :=
    below_recordPath hroot hkey
  exact hpath.temp hroot (by simpa using hkey.space) hkey.name

end

/-- A store that was opened has a root. -/
theorem openAt_isRoot {root : String} {t t' : FileTree} {d : Directory}
    (h : openAt root t = (t', .ok d)) (hworking : t.find t.working = some .directory) :
    ∃ top, IsRoot t' d.root top := by
  unfold openAt at h
  split at h
  · rename_i t₁ hmake
    cases h
    unfold FileTree.createDirectories at hmake
    split at hmake
    · cases hmake
    · rename_i hclean
      have hstart : t.find (if Path.isAbsolute root then [] else t.working) = some .directory := by
        split
        · rfl
        · exact hworking
      obtain ⟨top, hwalk, htop, directories, hchange⟩ :=
        makeAll_ok (makeAll_of_makeWay hmake) hstart
      exact ⟨top, by simpa using hclean, by rw [hchange.working]; exact hwalk, htop⟩
  · cases h

/-! ### The stages of a call -/

/-- What is stored at a place. -/
def contentAt (t : FileTree) (place : List String) : Except Error (Option (Versioned Record)) :=
  match t.find place with
  | none => .ok none
  | some .directory => .error (.io .isDirectory)
  | some (.file bytes) =>
    match Versioned.parse? bytes with
    | some stored => .ok (some stored)
    | none => .error .corrupt

/-- The directory of a key is there, and the names of its record fit. -/
structure Prepared (d : Directory) (top : List String) (key : Key) (t : FileTree) : Prop where
  root : IsRoot t d.root top
  directory : t.find (spacePlace top key) = some .directory
  space : key.space.utf8ByteSize ≤ nameLimit
  name : (key.name ++ ".json").utf8ByteSize ≤ nameLimit

section

variable {d : Directory} {top : List String} {key other : Key} {t : FileTree}

/-- The files that a call may touch besides that of the record. -/
def spareFiles (top : List String) (key : Key) : List (List String) :=
  [lockPlace top key, tempPlace top key]

/-- What makes calls to the file system fail: a name of the key that is too long, or
something else that stands where a directory or a file of the key has to be. -/
structure Unobstructed (top : List String) (key : Key) (t : FileTree) : Prop where
  space : key.space.utf8ByteSize ≤ nameLimit
  name : (key.name ++ ".json.tmp").utf8ByteSize ≤ nameLimit
  directory : ∀ bytes, t.find (spacePlace top key) ≠ some (.file bytes)
  lock : t.find (lockPlace top key) ≠ some .directory
  temp : t.find (tempPlace top key) ≠ some .directory
  record : t.find (recordPlace top key) ≠ some .directory

/-- No directory of a namespace is where the file of a key is. -/
theorem filePlace_notMem (suffix : String) :
    filePlace top key suffix ∉ [spacePlace top other] := by
  simpa using filePlace_ne_spacePlace suffix

/-- No record is among the spare files of a call: those are a lock file and a temporary one. -/
theorem recordPlace_notMem : recordPlace top key ∉ spareFiles top other := by
  simp [spareFiles, recordPlace_ne_lockPlace, recordPlace_ne_tempPlace]

/-- The spare files of a call are among the files that it may touch. -/
theorem mem_of_mem_spareFiles :
    ∀ place ∈ spareFiles top key, place ∈ recordPlace top key :: spareFiles top key :=
  fun _ hmem => List.mem_cons_of_mem _ hmem

/-- In the directory of its namespace the lock file of a key is at its place, unless its name is too
long. This name is as long as that of the record. -/
theorem resolve_lock (hroot : IsRoot t d.root top) (hkey : key.IsPlain)
    (hfits : key.space.utf8ByteSize ≤ nameLimit)
    (hdir : t.find (spacePlace top key) = some .directory) :
    t.resolve (d.lockPath key)
      = if nameLimit < (key.name ++ ".json").utf8ByteSize then .error .nameTooLong
        else .ok (lockPlace top key) := by
  have hsame : (key.name ++ ".lock").utf8ByteSize = (key.name ++ ".json").utf8ByteSize := by
    rw [String.utf8ByteSize_append, String.utf8ByteSize_append]
    rfl
  rw [← hsame]
  exact hroot.resolve_file (below_lockPath hroot.clean hkey) hkey.space (plain_lock hkey) hfits hdir

/-- Preparing a key changes its directory and its lock file at most; it fails only for what stands
in the way, and otherwise the key is prepared. -/
theorem prepare_cases (hroot : IsRoot t d.root top) (hkey : key.IsPlain) :
    ∃ t', ChangesOnly [spacePlace top key] [lockPlace top key] t t'
      ∧ (((∃ e, d.prepare key t = (t', .error (.io e))) ∧ ¬ Unobstructed top key t)
        ∨ (d.prepare key t = (t', .ok ()) ∧ Prepared d top key t')) := by
  have hmake := hroot.createDirectories (below_parent hroot.clean hkey) hkey.space.parent
  unfold prepare
  rw [hmake]
  rcases makeAll_name hroot.directory hkey.space with
    ⟨⟨e, he⟩, hwhy⟩ | ⟨hfits, t₁, ht₁, hchange₁, hdir⟩
  · simp only [he]
    refine ⟨t, .refl _ _ t, .inl ⟨⟨e, rfl⟩, fun hfree => ?_⟩⟩
    rcases hwhy with hlong | ⟨bytes, hbytes⟩
    · exact absurd hfree.space (Nat.not_le.mpr hlong)
    · exact hfree.directory bytes hbytes
  simp only [ht₁]
  have hboth₁ : ChangesOnly [spacePlace top key] [lockPlace top key] t t₁ :=
    hchange₁.mono (by simp [spacePlace]) (by simp)
  have hroot₁ := hroot.keeps hchange₁
  have hresolve := resolve_lock hroot₁ hkey hfits hdir
  by_cases hsize : nameLimit < (key.name ++ ".json").utf8ByteSize
  · rw [if_pos hsize] at hresolve
    refine ⟨t₁, hboth₁, .inl ⟨⟨.nameTooLong, ?_⟩, fun hfree => ?_⟩⟩
    · simp [touch, hresolve, bind, Except.bind]
    · have hname := hfree.name
      rw [String.utf8ByteSize_append] at hsize hname
      have hlonger : ".json".utf8ByteSize ≤ ".json.tmp".utf8ByteSize := by decide
      omega
  rw [if_neg hsize] at hresolve
  rcases touch_cases hresolve (by simp [lockPlace, filePlace]) with
    ⟨⟨e, he⟩, hlock⟩ | ⟨t₂, ht₂, hchange₂⟩
  · simp only [he]
    refine ⟨t₁, hboth₁, .inl ⟨⟨e, rfl⟩, fun hfree => hfree.lock ?_⟩⟩
    exact hchange₁.made (lockPlace top key) (filePlace_notMem _) hlock
  · simp only [ht₂]
    refine ⟨t₂, hboth₁.trans (hchange₂.mono (by simp) (by simp [lockPlace, filePlace])),
      .inr ⟨rfl, ?_⟩⟩
    exact ⟨hroot₁.keeps hchange₂, hchange₂.kept _ hdir, hfits, Nat.not_lt.mp hsize⟩

/-- Once a key is prepared, the path of its record leads to its place. -/
theorem Prepared.resolve_record (h : Prepared d top key t) (hkey : key.IsPlain) :
    t.resolve (d.recordPath key) = .ok (recordPlace top key) := by
  rw [h.root.resolve_file (below_recordPath h.root.clean hkey) hkey.space
    (plain_record hkey) h.space h.directory, if_neg (Nat.not_lt.mpr h.name)]
  rfl

/-- Once a key is prepared, the path of its temporary file leads to its place, unless its name is
too long. -/
theorem Prepared.resolve_temp (h : Prepared d top key t) (hkey : key.IsPlain) :
    t.resolve (Path.temp (d.recordPath key))
      = if nameLimit < (key.name ++ ".json.tmp").utf8ByteSize then .error .nameTooLong
        else .ok (tempPlace top key) :=
  h.root.resolve_file (below_temp h.root.clean hkey) hkey.space (plain_temp hkey)
    h.space h.directory

/-- A key stays prepared when none of its directories is removed. -/
theorem Prepared.keeps (h : Prepared d top key t) {directories files : List (List String)}
    {t' : FileTree} (hchange : ChangesOnly directories files t t') : Prepared d top key t' :=
  ⟨h.root.keeps hchange, hchange.kept _ h.directory, h.space, h.name⟩

/-- Reading a record whose path resolves is looking at its place. -/
theorem readRecord_of_resolve {path : String} {place : List String}
    (h : t.resolve path = .ok place) : readRecord t path = contentAt t place := by
  unfold readRecord contentAt
  rw [read_of_resolve h]
  cases t.find place with
  | none => rfl
  | some node => cases node <;> rfl

/-- Once a key is prepared, reading its record is looking at the place of it. -/
theorem Prepared.readRecord (h : Prepared d top key t) (hkey : key.IsPlain) :
    readRecord t (d.recordPath key) = contentAt t (recordPlace top key) :=
  readRecord_of_resolve (h.resolve_record hkey)

/-- What a call makes before it reads is not in the place of the record. -/
theorem Prepared.readRecord_before {t₁ : FileTree} (h : Prepared d top key t₁) (hkey : key.IsPlain)
    (hchange : ChangesOnly [spacePlace top key] (spareFiles top key) t t₁) :
    Directory.readRecord t₁ (d.recordPath key) = contentAt t (recordPlace top key) := by
  rw [h.readRecord hkey]
  unfold contentAt
  rw [hchange.others (recordPlace top key) (filePlace_notMem _) recordPlace_notMem]

/-- A write whose temporary file cannot be reached changes nothing. -/
theorem land_refused {path : String} {e : FileError}
    (h : t.resolve (Path.temp path) = .error e) (stored : Versioned Record) :
    land t path stored = (t, .failed (.io e)) := by
  simp [land, writeRecord, write, h, bind, Except.bind]

/-- A record is written to its temporary file, which then takes the place of the
record file, unless a directory is in the way of the temporary file. -/
theorem land_cases_of {path : String} {place tempPlace : List String}
    (hrecord : ∀ t', ChangesOnly [] [tempPlace] t t' → t'.resolve path = .ok place)
    (htemp : ∀ t', ChangesOnly [] [tempPlace] t t' → t'.resolve (Path.temp path) = .ok tempPlace)
    (hne : place ≠ []) (hnetemp : tempPlace ≠ []) (hother : place ≠ tempPlace)
    (hfile : t.find place ≠ some .directory) (stored : Versioned Record) :
    (land t path stored = (t, .failed (.io .isDirectory)) ∧ t.find tempPlace = some .directory)
      ∨ ∃ t', land t path stored = (t', .written stored.version)
        ∧ ChangesOnly [] [tempPlace, place] t t'
        ∧ t'.find place = some (.file stored.fileBytes) := by
  have hresolve := htemp t (.refl _ _ t)
  unfold land writeRecord
  by_cases hdir : t.find tempPlace = some .directory
  · refine .inl ⟨?_, hdir⟩
    simp [write_directory hresolve hdir]
  obtain ⟨t₁, hwrite, hchange₁, hcontent⟩ := write_of_resolve stored.fileBytes hresolve hnetemp hdir
  have hfile₁ : t₁.find place ≠ some .directory := by
    rw [hchange₁.others _ (by simp) (by simpa using hother)]
    exact hfile
  obtain ⟨t₂, hrename, hchange₂, hstored⟩ := rename_of_resolve (htemp t₁ hchange₁) hcontent
    (hrecord t₁ hchange₁) hne hother hfile₁
  refine .inr ⟨t₂, ?_, (hchange₁.mono (by simp) (by simp)).trans hchange₂, hstored⟩
  simp only [hwrite, hrename]

/-- Writing a record fails beside its file, or puts the record there. -/
theorem Prepared.land_cases (h : Prepared d top key t) (hkey : key.IsPlain)
    (hfile : t.find (recordPlace top key) ≠ some .directory) (stored : Versioned Record) :
    ∃ t', ((∃ e, land t (d.recordPath key) stored = (t', .failed (.io e)))
        ∧ ChangesOnly [] [tempPlace top key] t t'
        ∧ (nameLimit < (key.name ++ ".json.tmp").utf8ByteSize
          ∨ t.find (tempPlace top key) = some .directory))
      ∨ (land t (d.recordPath key) stored = (t', .written stored.version)
        ∧ ChangesOnly [] [tempPlace top key, recordPlace top key] t t'
        ∧ t'.find (recordPlace top key) = some (.file stored.fileBytes)) := by
  by_cases hsize : nameLimit < (key.name ++ ".json.tmp").utf8ByteSize
  · have hresolve := h.resolve_temp hkey
    rw [if_pos hsize] at hresolve
    exact ⟨t, .inl ⟨⟨_, land_refused hresolve stored⟩, .refl _ _ t, .inl hsize⟩⟩
  have htemp : ∀ t', ChangesOnly [] [tempPlace top key] t t' →
      t'.resolve (Path.temp (d.recordPath key)) = .ok (tempPlace top key) := by
    intro t' hchange
    rw [(h.keeps hchange).resolve_temp hkey, if_neg hsize]
  rcases land_cases_of (fun t' hchange => (h.keeps hchange).resolve_record hkey) htemp
    (by simp [recordPlace, filePlace]) (by simp [tempPlace, filePlace]) recordPlace_ne_tempPlace
    hfile stored with ⟨hland, hdir⟩ | ⟨t', hland, hchange, hfind⟩
  · exact ⟨t, .inl ⟨⟨_, hland⟩, .refl _ _ t, .inr hdir⟩⟩
  · exact ⟨t', .inr ⟨hland, hchange, hfind⟩⟩

/-! ### The whole call -/

/-- What a call about a key does to the tree. -/
inductive Answered (top : List String) (key : Key) (t : FileTree) :
    Request → FileTree → Reply → Prop
  /-- The file system fails on the way. -/
  | refused {request : Request} {t' : FileTree} (e : FileError)
      (hchange : ChangesOnly [spacePlace top key] (spareFiles top key) t t')
      (hwhy : ¬ Unobstructed top key t) :
      Answered top key t request t' (.failed (.io e))
  /-- What is stored is no record. -/
  | corrupt {request : Request} {t' : FileTree}
      (hchange : ChangesOnly [spacePlace top key] (spareFiles top key) t t')
      (hcontent : contentAt t (recordPlace top key) = .error .corrupt) :
      Answered top key t request t' (.failed .corrupt)
  /-- The record decides, and stays as it is. -/
  | kept {request : Request} {t' : FileTree} {current : Option (Versioned Record)} {reply : Reply}
      (hchange : ChangesOnly [spacePlace top key] (spareFiles top key) t t')
      (hcontent : contentAt t (recordPlace top key) = .ok current)
      (hdecided : Decided key current request current reply) :
      Answered top key t request t' reply
  /-- The record decides, and another one is written. -/
  | written {request : Request} {t' : FileTree} {current : Option (Versioned Record)}
      {stored : Versioned Record}
      (hchange : ChangesOnly [spacePlace top key] (recordPlace top key :: spareFiles top key) t t')
      (hcontent : contentAt t (recordPlace top key) = .ok current)
      (hdecided : Decided key current request (some stored) (.written stored.version))
      (hfind : t'.find (recordPlace top key) = some (.file stored.fileBytes)) :
      Answered top key t request t' (.written stored.version)

/-- A record that is to be written is written, or the file system fails. -/
theorem Prepared.answered_land {t₁ : FileTree} (h : Prepared d top key t₁) (hkey : key.IsPlain)
    (hchange₁ : ChangesOnly [spacePlace top key] [lockPlace top key] t t₁) {request : Request}
    {current : Option (Versioned Record)} {stored : Versioned Record}
    (hcontent : contentAt t (recordPlace top key) = .ok current)
    (hdecided : Decided key current request (some stored) (.written stored.version)) :
    Answered top key t request (land t₁ (d.recordPath key) stored).1
      (land t₁ (d.recordPath key) stored).2 := by
  have hchange : ChangesOnly [spacePlace top key] (spareFiles top key) t t₁ :=
    hchange₁.mono (by simp) (by simp [spareFiles])
  have hfile : t₁.find (recordPlace top key) ≠ some .directory := by
    rw [hchange.others (recordPlace top key) (filePlace_notMem _) recordPlace_notMem]
    intro hdir
    simp [contentAt, hdir] at hcontent
  obtain ⟨t₂, hland⟩ := h.land_cases hkey hfile stored
  -- the temporary file is all that a failed landing leaves; a landing that gets through is one
  -- rename
  rcases hland with ⟨⟨e, hland⟩, hchange₂, hwhy⟩ | ⟨hland, hchange₂, hfind⟩
  · rw [hland]
    have hspare := hchange.trans (hchange₂.mono (by simp) (by simp [spareFiles]))
    refine .refused e hspare fun hfree => ?_
    rcases hwhy with hlong | hdir
    · exact absurd hfree.name (Nat.not_le.mpr hlong)
    · exact hfree.temp (hchange₁.made _ (filePlace_notMem _) hdir)
  · rw [hland]
    exact .written ((hchange.mono (by simp) mem_of_mem_spareFiles).trans
      (hchange₂.mono (by simp) (by simp [spareFiles]))) hcontent hdecided hfind

/-- What is stored at a place fails to be read when it is no record, or is a directory. -/
theorem contentAt_error {place : List String} {e : Error} (h : contentAt t place = .error e) :
    e = .corrupt ∨ (e = .io .isDirectory ∧ t.find place = some .directory) := by
  unfold contentAt at h
  split at h
  · cases h
  · rename_i hdir
    cases h
    exact .inr ⟨rfl, hdir⟩
  · split at h
    · cases h
    · cases h
      exact .inl rfl

/-- Every call about a plain key is answered in one of these ways. -/
theorem answer_answered (hroot : IsRoot t d.root top) (hkey : key.IsPlain) (request : Request) :
    Answered top key t request (d.answer t key request).1 (d.answer t key request).2 := by
  obtain ⟨t₁, hchange₁, hprepared⟩ := prepare_cases hroot hkey
  have hspare : ChangesOnly [spacePlace top key] (spareFiles top key) t t₁ :=
    hchange₁.mono (by simp) (by simp [spareFiles])
  rcases hprepared with ⟨⟨e, hprepare⟩, hwhy⟩ | ⟨hprepare, h₁⟩
  · have hanswer : d.answer t key request = (t₁, .failed (.io e)) := by
      unfold answer
      rw [hprepare]
    rw [hanswer]
    exact .refused e hspare hwhy
  unfold answer
  rw [hprepare]
  simp only [h₁.readRecord_before hkey hspare]
  cases hcontent : contentAt t (recordPlace top key) with
  | error e =>
    rcases contentAt_error hcontent with rfl | ⟨rfl, hdir⟩
    · exact .corrupt hspare hcontent
    · exact .refused .isDirectory hspare fun hfree => hfree.record hdir
  | ok current =>
    cases request with
    | get => exact .kept hspare hcontent .read
    | create record =>
      cases current with
      | none => exact h₁.answered_land hkey hchange₁ hcontent (.created rfl)
      | some stored => exact .kept hspare hcontent (.taken rfl)
    | update record expected =>
      cases current with
      | none => exact .kept hspare hcontent (.missing rfl)
      | some stored =>
        by_cases hversion : stored.version = expected
        · simp only [if_pos hversion]
          subst hversion
          exact h₁.answered_land hkey hchange₁ hcontent (.updated rfl rfl)
        · simp only [if_neg hversion]
          exact .kept hspare hcontent (.moved rfl hversion)

namespace Answered

variable {request : Request} {t' : FileTree} {reply : Reply}

/-- A call touches nothing but the places of its key. -/
theorem changesOnly (h : Answered top key t request t' reply) :
    ChangesOnly [spacePlace top key] (recordPlace top key :: spareFiles top key) t t' := by
  cases h with
  | refused e hchange hwhy => exact hchange.mono (fun _ h => h) mem_of_mem_spareFiles
  | corrupt hchange hcontent => exact hchange.mono (fun _ h => h) mem_of_mem_spareFiles
  | kept hchange hcontent hdecided => exact hchange.mono (fun _ h => h) mem_of_mem_spareFiles
  | written hchange hcontent hdecided hfind => exact hchange

/-- The record of another key stays. -/
theorem content_other (h : Answered top key t request t' reply) (hne : other ≠ key) :
    contentAt t' (recordPlace top other) = contentAt t (recordPlace top other) := by
  have hfile : recordPlace top other ∉ recordPlace top key :: spareFiles top key := by
    intro hmem
    rcases List.mem_cons.mp hmem with heq | hmem
    · exact hne (recordPlace_injective heq)
    · exact recordPlace_notMem hmem
  unfold contentAt
  rw [h.changesOnly.others (recordPlace top other) (filePlace_notMem _) hfile]

/-- What stands in the way of no key does not come to stand there. -/
theorem unobstructed (h : Answered top key t request t' reply)
    (hfree : Unobstructed top other t) : Unobstructed top other t' := by
  have hchange := h.changesOnly
  have hspace : spacePlace top other ∉ recordPlace top key :: spareFiles top key := by
    simp [spareFiles, recordPlace, lockPlace, tempPlace, filePlace_ne_spacePlace,
      ne_comm (a := spacePlace top other)]
  refine ⟨hfree.space, hfree.name, fun bytes hbytes => ?_, fun hdir => ?_, fun hdir => ?_,
    fun hdir => ?_⟩
  · exact hfree.directory bytes (hchange.written _ bytes hspace hbytes)
  · exact hfree.lock (hchange.made _ (filePlace_notMem _) hdir)
  · exact hfree.temp (hchange.made _ (filePlace_notMem _) hdir)
  · exact hfree.record (hchange.made _ (filePlace_notMem _) hdir)

/-- A call that nothing stands in the way of is not failed by the file system. -/
theorem ne_io (h : Answered top key t request t' reply) (hfree : Unobstructed top key t)
    (e : FileError) : reply ≠ .failed (.io e) := by
  cases h with
  | refused e hchange hwhy => exact absurd hfree hwhy
  | corrupt hchange hcontent => simp
  | kept hchange hcontent hdecided => cases hdecided <;> simp
  | written hchange hcontent hdecided hfind => simp

end Answered

end

end Store.Directory

end Tenure
