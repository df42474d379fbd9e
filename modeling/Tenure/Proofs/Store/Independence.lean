import Tenure.Proofs.Store.Layout
import Tenure.Proofs.Store.Refinement
import Tenure.Text.Blank

/-!
# `Tenure.Proofs.Store.Independence`: which keys share a record

A store in memory keeps the records of different keys apart, whatever the keys look
like. A store in a directory does so for plain keys, each of which names one thing in
a directory: no call about one of them changes what a lookup of another one tells, be
it a record or the reason why there is none to be told (`answer_get_plain`).

For other keys it depends on where their files are. If two keys are in place, so that
a lookup makes nothing, then a call about one of them changes what a lookup of the
other one tells exactly when it writes and both have one and the same record file
(`InPlace.lookup_changed_iff`). That happens to keys that are different and not
blank: the parts of a namespace and of a name are put together to one path, and where
the one ends and the other one begins is lost.

* `answer_get_reply`: what a lookup of a plain key tells, by what is in the tree.
* `answer_evolves`: no call does away with a directory.
* `keys_independent_iff`: both facts, after any calls on a store that was opened.
-/

set_option autoImplicit false

namespace Tenure.Store

/-- In memory, a call about one key leaves what lookups of the others find. -/
theorem Memory.lookup_other (m : Memory) {key other : Key} (hne : other ≠ key)
    (request : Request) :
    ((m.answer key request).1.answer other .get).2 = (m.answer other .get).2 :=
  congrArg Reply.found (m.answer_get_other key other request hne)

namespace Directory

open FileTree

/-! ### What a lookup of a plain key tells -/

/-- Whether there is a file at a place. -/
def hasFile (t : FileTree) (place : List String) : Bool :=
  match t.find place with
  | some (.file _) => true
  | _ => false

/-- The test for a file means what it says. -/
theorem hasFile_iff {t : FileTree} {place : List String} :
    hasFile t place = true ↔ ∃ bytes, t.find place = some (.file bytes) := by
  unfold hasFile
  split
  · rename_i bytes hfile
    exact ⟨fun _ => ⟨bytes, hfile⟩, fun _ => rfl⟩
  · rename_i hnone
    exact ⟨(by simp), fun ⟨bytes, hfile⟩ => absurd hfile (hnone bytes)⟩

/-- What a lookup of a plain key tells: what stands in the way of its files, or what is
in its record file. -/
def lookupReply (top : List String) (key : Key) (t : FileTree) : Reply :=
  if nameLimit < key.space.utf8ByteSize then .failed (.io .nameTooLong)
  else if hasFile t (spacePlace top key) then .failed (.io .«exists»)
  else if nameLimit < (key.name ++ ".json").utf8ByteSize then .failed (.io .nameTooLong)
  else if t.find (lockPlace top key) = some .directory then .failed (.io .isDirectory)
  else match contentAt t (recordPlace top key) with
    | .ok current => .found current
    | .error e => .failed e

section

variable {d : Directory} {top : List String} {key other : Key} {t t' : FileTree}

/-- A file that stands where the directory of a key has to be ends every call. -/
theorem answer_blocked (hroot : IsRoot t d.root top) (hkey : key.IsPlain)
    (hsize : key.space.utf8ByteSize ≤ nameLimit) {bytes : List UInt8}
    (hfile : t.find (spacePlace top key) = some (.file bytes)) (request : Request) :
    d.answer t key request = (t, .failed (.io .«exists»)) := by
  have hfind : t.find (top ++ [key.space]) = some (.file bytes) := hfile
  have hmake : t.makeAll top [key.space] = (t, .error .«exists») := by
    simp only [makeAll, makeDirectory, enter_plain hroot.directory hkey.space.parent,
      if_neg (Nat.not_lt.mpr hsize), bind, Except.bind, hfind]
    rfl
  unfold answer prepare
  rw [hroot.createDirectories (below_parent hroot.clean hkey) hkey.space.parent, hmake]

/-- What a lookup tells once the directory of its key is made: why the lock file cannot be opened,
or what is in the place of the record. -/
theorem answer_get_made (hroot : IsRoot t d.root top) (hkey : key.IsPlain)
    (hfits : key.space.utf8ByteSize ≤ nameLimit) {t₁ : FileTree}
    (hmake : t.makeAll top [key.space] = (t₁, .ok ()))
    (hchange : ChangesOnly [spacePlace top key] [] t t₁)
    (hdir : t₁.find (spacePlace top key) = some .directory) :
    (d.answer t key .get).2
      = if nameLimit < (key.name ++ ".json").utf8ByteSize then .failed (.io .nameTooLong)
        else if t.find (lockPlace top key) = some .directory then .failed (.io .isDirectory)
        else match contentAt t (recordPlace top key) with
          | .ok current => .found current
          | .error e => .failed e := by
  have hroot₁ := hroot.keeps hchange
  have hlock₁ : t₁.find (lockPlace top key) = t.find (lockPlace top key) :=
    hchange.others _ (filePlace_notMem _) (by simp)
  have hresolve := resolve_lock hroot₁ hkey hfits hdir
  unfold answer prepare
  rw [hroot.createDirectories (below_parent hroot.clean hkey) hkey.space.parent, hmake]
  by_cases hname : nameLimit < (key.name ++ ".json").utf8ByteSize
  · rw [if_pos hname] at hresolve ⊢
    simp [touch, hresolve, bind, Except.bind]
  rw [if_neg hname] at hresolve ⊢
  by_cases hlock : t.find (lockPlace top key) = some .directory
  · have hlocked : t₁.find (lockPlace top key) = some .directory := hlock₁.trans hlock
    have htouch : t₁.touch (d.lockPath key) = .error .isDirectory := by
      simp only [touch, hresolve, bind, Except.bind, hlocked]
      rfl
    simp [htouch, hlock]
  rw [if_neg hlock]
  rcases touch_cases hresolve (by simp [lockPlace, filePlace]) with
    ⟨-, hlocked⟩ | ⟨t₂, ht₂, hchange₂⟩
  · exact absurd (hlock₁.symm.trans hlocked) hlock
  have h₂ : Prepared d top key t₂ :=
    ⟨hroot₁.keeps hchange₂, hchange₂.kept _ hdir, hfits, Nat.not_lt.mp hname⟩
  have hboth : ChangesOnly [spacePlace top key] (spareFiles top key) t t₂ :=
    (hchange.mono (fun _ hmem => hmem) (by simp)).trans
      (hchange₂.mono (by simp) (by simp [spareFiles]))
  simp only [ht₂, h₂.readRecord_before hkey hboth]
  cases contentAt t (recordPlace top key) <;> rfl

/-- A lookup of a plain key tells of its own places in the tree and of nothing else. -/
theorem answer_get_reply (hroot : IsRoot t d.root top) (hkey : key.IsPlain) :
    (d.answer t key .get).2 = lookupReply top key t := by
  unfold lookupReply
  by_cases hspace : nameLimit < key.space.utf8ByteSize
  · have hmake : t.makeAll top [key.space] = (t, .error .nameTooLong) := by
      simp only [makeAll, makeDirectory, enter_plain hroot.directory hkey.space.parent,
        if_pos hspace, bind, Except.bind]
    unfold answer prepare
    rw [hroot.createDirectories (below_parent hroot.clean hkey) hkey.space.parent, hmake,
      if_pos hspace]
  rw [if_neg hspace]
  by_cases hblocked : hasFile t (spacePlace top key) = true
  · obtain ⟨bytes, hfile⟩ := hasFile_iff.mp hblocked
    rw [answer_blocked hroot hkey (Nat.not_lt.mp hspace) hfile, if_pos hblocked]
  rw [if_neg hblocked]
  -- the directory of the key is there, or it is made
  rcases makeAll_name hroot.directory hkey.space with
    ⟨-, hlong | ⟨bytes, hbytes⟩⟩ | ⟨hfits, t₁, hmake, hchange, hdir⟩
  · exact absurd hlong hspace
  · exact absurd (hasFile_iff.mpr ⟨bytes, hbytes⟩) hblocked
  · exact answer_get_made hroot hkey hfits hmake hchange hdir

/-- A call about one plain key leaves what a lookup of another one tells as it was. -/
theorem answer_get_plain (hroot : IsRoot t d.root top) (hkey : key.IsPlain) (hother : other.IsPlain)
    (hne : other ≠ key) (request : Request) :
    (d.answer (d.answer t key request).1 other .get).2 = (d.answer t other .get).2 := by
  have hanswered := answer_answered hroot hkey request
  have hchange := hanswered.changesOnly
  have hroot' := hroot.keeps hchange
  have hspaceFile : spacePlace top other ∉ recordPlace top key :: spareFiles top key := by
    simp [spareFiles, recordPlace, lockPlace, tempPlace, filePlace_ne_spacePlace,
      ne_comm (a := spacePlace top other)]
  by_cases hblocked : key.space.utf8ByteSize ≤ nameLimit
      ∧ ∃ bytes, t.find (spacePlace top key) = some (.file bytes)
  · -- nothing can be done for this key at all
    obtain ⟨hsize, bytes, hfile⟩ := hblocked
    rw [answer_blocked hroot hkey hsize hfile]
  rw [answer_get_reply hroot' hother, answer_get_reply hroot hother]
  unfold lookupReply
  by_cases hlong : nameLimit < other.space.utf8ByteSize
  · rw [if_pos hlong, if_pos hlong]
  rw [if_neg hlong, if_neg hlong]
  -- a call makes no file where a directory of a namespace has to be, and removes none either
  have hfile : hasFile (d.answer t key request).1 (spacePlace top other)
      = hasFile t (spacePlace top other) := by
    rw [Bool.eq_iff_iff, hasFile_iff, hasFile_iff]
    constructor
    · rintro ⟨bytes, hbytes⟩
      exact ⟨bytes, hchange.written _ bytes hspaceFile hbytes⟩
    · rintro ⟨bytes, hbytes⟩
      have hapart : spacePlace top other ∉ [spacePlace top key] := by
        intro hmem
        have hplace : spacePlace top other = spacePlace top key := List.mem_singleton.mp hmem
        have hspace : other.space = key.space := by simpa [spacePlace] using hplace
        rw [hspace] at hlong
        rw [hplace] at hbytes
        exact hblocked ⟨Nat.not_lt.mp hlong, bytes, hbytes⟩
      exact ⟨bytes, (hchange.others _ hapart hspaceFile).trans hbytes⟩
  -- the only directory it may make is that of its own namespace, which no lock file shares a place
  -- with
  have hlock : (d.answer t key request).1.find (lockPlace top other) = some .directory
      ↔ t.find (lockPlace top other) = some .directory :=
    ⟨hchange.made _ (filePlace_notMem _), hchange.kept _⟩
  simp only [hfile, hlock, hanswered.content_other hne]

/-! ### Keys of any form -/

section

variable {absolute absolute' : Bool} {way way' dir dir' : List String}
  {name name' temp temp' : String}

/-- A key stays in place whatever is done about another one that is. -/
theorem Treated.inPlace {reply : Reply}
    (htreated : Treated (recordIn dir name) (dir ++ [temp]) t t' reply)
    (hlayout : Layout d key absolute way name temp) (hsound : t.IsSound)
    (h' : InPlace t absolute' way' name' dir') :
    t'.IsSound ∧ InPlace t' absolute' way' name' dir' := by
  cases htreated with
  | left hreply => exact ⟨hsound, h'⟩
  | written hcontent hversion hchange hfind =>
    refine ⟨hchange.evolves.sound hsound, h'.keeps hchange ?_⟩
    -- neither a temporary file nor a record is the lock file of any key
    intro hmem
    simp only [recordIn, List.mem_cons, List.not_mem_nil, or_false] at hmem
    rcases hmem with htemp | hrecord
    · have hlast := List.append_inj_right' htemp rfl
      exact hlayout.apart name' ".lock" (.inr rfl) (List.cons.inj hlast).1.symm
    · have hlast := List.append_inj_right' hrecord rfl
      exact append_ne 'k' 'n' rfl rfl (by decide) (List.cons.inj hlast).1

/-- A record file is not a temporary file. -/
theorem Layout.recordIn_ne (hlayout : Layout d key absolute way name temp) :
    recordIn dir' name' ≠ dir ++ [temp] := by
  intro heq
  have hlast := List.append_inj_right' heq rfl
  exact hlayout.apart name' ".json" (.inl rfl) (List.cons.inj hlast).1.symm

/-- Another lookup tells something else exactly when the call has written, and into the
record file that both keys have. -/
theorem InPlace.lookup_changed_iff (h : InPlace t absolute way name dir)
    (h' : InPlace t absolute' way' name' dir') (hsound : t.IsSound)
    (hlayout : Layout d key absolute way name temp)
    (hlayout' : Layout d other absolute' way' name' temp') (request : Request)
    (hversions : ∀ version, (d.answer t key request).2 = .written version →
      version < UInt64.size) :
    (d.answer (d.answer t key request).1 other .get).2 ≠ (d.answer t other .get).2
      ↔ t.resolve (d.recordPath key) = t.resolve (d.recordPath other)
        ∧ ∃ version, (d.answer t key request).2 = .written version := by
  have htreated := h.answer_treated hsound hlayout request
  obtain ⟨hsound', hstays⟩ := htreated.inPlace hlayout hsound h'
  rw [hstays.answer_get hsound' hlayout', h'.answer_get hsound hlayout',
    h.resolve_record hsound hlayout, h'.resolve_record hsound hlayout']
  generalize d.answer t key request = answer at htreated hversions ⊢
  obtain ⟨t', reply⟩ := answer
  simp only at htreated hversions ⊢
  cases htreated with
  | left hreply =>
    constructor
    · intro hne
      exact absurd rfl hne
    · rintro ⟨-, version, hwritten⟩
      exact absurd hwritten (hreply version)
  | @written _ current stored hcontent hversion hchange hfind =>
    have hstored : contentAt t' (recordIn dir name) = .ok (some stored) :=
      contentAt_fileBytes hfind (hversions _ rfl)
    constructor
    · intro hne
      -- whatever is in another place is as it was
      by_cases hplace : recordIn dir' name' = recordIn dir name
      · exact ⟨congrArg Except.ok hplace.symm, _, rfl⟩
      have hsame : contentAt t' (recordIn dir' name') = contentAt t (recordIn dir' name') := by
        unfold contentAt
        rw [hchange.others _ (by simp) (by simp [hplace, hlayout.recordIn_ne])]
      rw [hsame] at hne
      exact absurd rfl hne
    · rintro ⟨hplace, -⟩ heq
      have hshared : recordIn dir' name' = recordIn dir name := (Except.ok.inj hplace).symm
      rw [hshared, hstored, hcontent] at heq
      -- what was found before is not what has been written
      obtain rfl : some stored = current := Reply.found.inj heq
      simp [versionOf] at hversion

end

/-- A path that leads somewhere is without a NUL. -/
theorem clean_of_resolve {path : String} {place : List String} (h : t.resolve path = .ok place) :
    '\x00' ∉ path.toList := by
  intro hnul
  unfold resolve at h
  split at h
  · cases h
  · rw [if_pos (by simpa using hnul)] at h
    cases h

/-- A key that was prepared has no NUL in its paths. -/
theorem clean_of_prepare (h : d.prepare key t = (t', .ok ())) :
    '\x00' ∉ (d.lockPath key).toList := by
  unfold prepare at h
  split at h
  · cases h
  · rename_i t₁ hmade
    cases hresolve : t₁.resolve (d.lockPath key) with
    | error e => simp [touch, hresolve, bind, Except.bind] at h
    | ok place => exact clean_of_resolve hresolve

/-- A key for which everything was made has its files in one directory. -/
theorem exists_inPlace_of_prepare (hsound : t.IsSound) (h : d.prepare key t = (t', .ok ())) :
    ∃ absolute way name temp dir, Layout d key absolute way name temp
      ∧ InPlace t' absolute way name dir := by
  obtain ⟨absolute, way, name, temp, hlayout⟩ := exists_layout (clean_of_prepare h)
  obtain ⟨dir, hplace⟩ := inPlace_of_prepare hsound hlayout h
  exact ⟨absolute, way, name, temp, dir, hlayout, hplace⟩

/-- A key whose lookup makes nothing, and finds a record or that there is none, is in
place. -/
theorem exists_inPlace {found : Option (Versioned Record)} (hsound : t.IsSound)
    (h : d.answer t key .get = (t, .found found)) :
    ∃ absolute way name temp dir, Layout d key absolute way name temp
      ∧ InPlace t absolute way name dir := by
  -- a lookup does nothing to the tree but prepare it
  have hprepare : d.prepare key t = (t, .ok ()) := by
    unfold answer at h
    cases hprepare : d.prepare key t with
    | mk t₁ result =>
      cases result with
      | error e => simp [hprepare] at h
      | ok u =>
        simp only [hprepare] at h
        split at h
        · simp at h
        · simp only [Prod.mk.injEq] at h
          rw [h.1]
  exact exists_inPlace_of_prepare hsound hprepare

/-! ### Any calls on a store -/

/-- Preparing a key evolves the tree. -/
theorem prepare_evolves (d : Directory) (key : Key) (t : FileTree) :
    Evolves t (d.prepare key t).1 := by
  have hmade := createDirectories_evolves t (Path.parent (d.recordPath key))
  unfold prepare
  generalize t.createDirectories (Path.parent (d.recordPath key)) = made at hmade ⊢
  obtain ⟨t₁, result⟩ := made
  cases result with
  | error e => exact hmade
  | ok u =>
    cases htouch : t₁.touch (d.lockPath key) with
    | error e => simpa only [htouch] using hmade
    | ok t₂ => simpa only [htouch] using hmade.trans (touch_evolves htouch)

/-- Landing a record evolves the tree, also when it fails half way. -/
theorem land_evolves (t : FileTree) (path : String) (stored : Versioned Record) :
    Evolves t (land t path stored).1 := by
  unfold land writeRecord
  cases hwrite : t.write (Path.temp path) stored.fileBytes with
  | error e => simpa only [hwrite] using Evolves.refl t
  | ok t₁ =>
    have hwritten := write_evolves hwrite
    cases hrename : t₁.rename (Path.temp path) path with
    | error e => simpa only [hwrite, hrename] using hwritten
    | ok t₂ => simpa only [hwrite, hrename] using hwritten.trans (rename_evolves hrename)

/-- No call does away with a directory, whatever its key looks like. -/
theorem answer_evolves (d : Directory) (t : FileTree) (key : Key) (request : Request) :
    Evolves t (d.answer t key request).1 := by
  have hprepared := d.prepare_evolves key t
  unfold answer
  generalize d.prepare key t = prepared at hprepared ⊢
  obtain ⟨t₁, result⟩ := prepared
  -- a call prepares its key; only a creation or an update that is due goes on to land a record
  cases result with
  | error e => exact hprepared
  | ok u =>
    have hland := fun stored => hprepared.trans (land_evolves t₁ (d.recordPath key) stored)
    simp only
    split
    · exact hprepared
    · split
      · exact hprepared
      · exact hprepared
      · exact hland _
      · exact hprepared
      · split
        · exact hland _
        · exact hprepared

/-- What a tree may become by calls of any stores about any keys. -/
inductive Later (t : FileTree) : FileTree → Prop
  | refl : Later t t
  | call {t' : FileTree} (h : Later t t') (d : Directory) (key : Key) (request : Request) :
      Later t (d.answer t' key request).1

/-- Calls one after the other evolve the tree. -/
theorem Later.evolves (h : Later t t') : Evolves t t' := by
  induction h with
  | refl => exact .refl t
  | call _ d key request ih => exact ih.trans (d.answer_evolves _ key request)

/-- Opening a store evolves the tree. -/
theorem openAt_evolves (root : String) (t : FileTree) : Evolves t (openAt root t).1 := by
  have hmade := createDirectories_evolves t root
  unfold openAt
  generalize t.createDirectories root = made at hmade ⊢
  obtain ⟨t₁, result⟩ := made
  cases result <;> exact hmade

/-- A store that was opened is the one at the path. -/
theorem openAt_of_isOk {root : String} {t : FileTree} (h : (openAt root t).2.isOk = true) :
    openAt root t = ((openAt root t).1, .ok ⟨root⟩) := by
  unfold openAt at h ⊢
  generalize t.createDirectories root = made at h ⊢
  obtain ⟨t₁, result⟩ := made
  cases result with
  | error e => cases h
  | ok u => rfl

/-- After any calls on a directory that a store was opened in, about any keys and
through any stores: no call about one plain key changes what a lookup of another one
tells. And if lookups of two keys of any form make nothing and are not failed, then a
call about the first changes what a lookup of the second tells exactly when it writes
and the record of both is one and the same file. A store in memory keeps all keys
apart. -/
theorem keys_independent_iff {root : String} {t₀ t₁ t : FileTree} (hsound : t₀.IsSound)
    (hopen : openAt root t₀ = (t₁, .ok d)) (hlater : Later t₁ t) (request : Request) :
    (∀ key other : Key, key.IsPlain → other.IsPlain → other ≠ key →
      (d.answer (d.answer t key request).1 other .get).2 = (d.answer t other .get).2)
    ∧ (∀ key other found found', d.answer t key .get = (t, .found found) →
      d.answer t other .get = (t, .found found') →
      (∀ version, (d.answer t key request).2 = .written version → version < UInt64.size) →
      ((d.answer (d.answer t key request).1 other .get).2 ≠ .found found'
        ↔ t.resolve (d.recordPath key) = t.resolve (d.recordPath other)
          ∧ ∃ version, (d.answer t key request).2 = .written version))
    ∧ ∀ (m : Memory) (key other : Key), other ≠ key →
      ((m.answer key request).1.answer other .get).2 = (m.answer other .get).2 := by
  have hopened : Evolves t₀ t₁ := by
    have hevolves := openAt_evolves root t₀
    rwa [hopen] at hevolves
  have hsound' : t.IsSound := hlater.evolves.sound (hopened.sound hsound)
  obtain ⟨top, hroot⟩ := openAt_isRoot hopen hsound.working
  have hroot' : IsRoot t d.root top := hlater.evolves.isRoot hroot
  refine ⟨fun key other hkey hother hne => answer_get_plain hroot' hkey hother hne request, ?_,
    fun m key other hne => m.lookup_other hne request⟩
  -- two records that are found have places, and a write through one changes the other just if they
  -- are one place
  intro key other found found' hfound hfound' hversions
  obtain ⟨absolute, way, name, temp, dir, hlayout, hplace⟩ := exists_inPlace hsound' hfound
  obtain ⟨absolute', way', name', temp', dir', hlayout', hplace'⟩ :=
    exists_inPlace hsound' hfound'
  have hiff := hplace.lookup_changed_iff hplace' hsound' hlayout hlayout' request hversions
  rwa [hfound'] at hiff

/-- Two plain keys, and two that are made up of the same parts but divide them in
another place. -/
theorem keys_independent_divided :
    let d : Directory := ⟨"/locks"⟩
    let key : Key := ⟨"a/b", "c"⟩
    let other : Key := ⟨"a", "b/c"⟩
    let request : Request := .create ⟨"pod-a", 15000, 10, 10, 0⟩
    let t := (d.answer (d.answer (openAt "/locks" .empty).1 key .get).1 other .get).1
    (d.answer (d.answer t ⟨"ns", "a"⟩ request).1 ⟨"ns", "b"⟩ .get).2
        = (d.answer t ⟨"ns", "b"⟩ .get).2
      ∧ (d.answer (d.answer t key request).1 other .get).2 ≠ .found none := by
  intro d key other request t
  have hopen : openAt "/locks" .empty = ((openAt "/locks" .empty).1, .ok d) :=
    openAt_of_isOk (by decide +kernel)
  have hlater : Later (openAt "/locks" .empty).1 t := .call (.call .refl d key .get) d other .get
  obtain ⟨hplain, hany, -⟩ := keys_independent_iff isSound_empty hopen hlater request
  have hwritten : (d.answer t key request).2 = .written 1 := by decide +kernel
  have hfound : d.answer t key .get = (t, .found none) := by decide +kernel
  have hfound' : d.answer t other .get = (t, .found none) := by decide +kernel
  have hpaths : d.recordPath key = d.recordPath other := by decide +kernel
  refine ⟨hplain ⟨"ns", "a"⟩ ⟨"ns", "b"⟩ (by decide) (by decide) (by decide), ?_⟩
  refine (hany key other none none hfound hfound' ?_).mpr
    ⟨congrArg t.resolve hpaths, 1, hwritten⟩
  intro version hversion
  rw [hwritten] at hversion
  cases hversion
  decide

/-- Two different keys, none of whose texts is blank, and one record: what is created
under the first is found under the second. -/
theorem lookup_finds_divided :
    let d : Directory := ⟨"/locks"⟩
    let t := (openAt "/locks" .empty).1
    let key : Key := ⟨"a/b", "c"⟩
    let other : Key := ⟨"a", "b/c"⟩
    let record : Record := ⟨"pod-a", 15000, 10, 10, 0⟩
    key ≠ other
      ∧ [key.space, key.name, other.space, other.name].all (fun s => !Text.isBlankText s) = true
      ∧ (d.answer t other .get).2 = .found none
      ∧ (d.answer (d.answer t key (.create record)).1 other .get).2
        = .found (some ⟨Versioned.initial, record⟩) := by
  decide +kernel

end

end Directory

end Tenure.Store
