import Tenure.Proofs.FileTree.Sound
import Tenure.Proofs.Store.Directory

/-!
# `Tenure.Proofs.Store.Layout`: the files of a key of any form

A key is two texts, and a store in a directory accepts all texts: its namespace may
have several parts, its name may start at the root or go up. This module reads off
where the files of such a key are. They are three names in one directory: the name of
the key's record and that of its lock file differ in what stands behind the last part
of the key, and the temporary file has a name that no record and no lock file has.

* `exists_layout`: the paths of a key, taken apart.
* `InPlace`: the directory and the lock file of a key are there, so that a call does
  not make them. `inPlace_of_prepare` says that a key is in place once a call about it
  was prepared, and `InPlace.prepare` that preparing another one does nothing.
* `InPlace.answer_cases`: what a call about a key that is in place does to the tree.

## The name that goes up

The name of the temporary file replaces the extension of the record's name. A name
that is a single dot makes the record `..json`, and what is left of that without its
extension is the way to the parent. There the store tries to write to a directory,
which fails; it is for this case that the tree has to be sound.
-/

set_option autoImplicit false

namespace Tenure

namespace Path

/-! ### Suffixes -/

/-- What is put behind the name of a key: a dot and something without separators. -/
structure IsSuffix (suffix : String) : Prop where
  dot : suffix.toList.head? = some '.'
  slash : '/' ∉ suffix.toList
  nul : '\x00' ∉ suffix.toList
  long : 1 < suffix.length

/-- The ending of a record's name is put behind the name of a key. -/
theorem isSuffix_json : IsSuffix ".json" := ⟨by decide, by decide, by decide, by decide⟩

/-- The ending of a lock file's name is put behind the name of a key. -/
theorem isSuffix_lock : IsSuffix ".lock" := ⟨by decide, by decide, by decide, by decide⟩

/-- The ending of a temporary file's name is put behind the name of a key. -/
theorem isSuffix_tmp : IsSuffix ".tmp" := ⟨by decide, by decide, by decide, by decide⟩

variable {suffix : String}

/-- A suffix has no part in where a path starts. -/
theorem IsSuffix.isAbsolute (h : IsSuffix suffix) (s : String) :
    isAbsolute (s ++ suffix) = isAbsolute s := by
  by_cases hs : s = ""
  · subst hs
    rw [String.empty_append]
    show (suffix.toList.head? == some '/') = _
    rw [h.dot]
    decide
  · exact isAbsolute_append hs suffix

/-- A suffix stays at the end of a path that is joined. -/
theorem IsSuffix.join (h : IsSuffix suffix) (base name : String) :
    join base (name ++ suffix) = join base name ++ suffix := by
  unfold Path.join
  rw [h.isAbsolute]
  split
  · rfl
  · split
    · exact (String.append_assoc ..).symm
    · exact (String.append_assoc ..).symm

/-- A part is longer than a dot when it ends in a suffix. -/
theorem IsSuffix.isPart (h : IsSuffix suffix) (s : String) : isPart (s ++ suffix) = true := by
  have hlength : 1 < (s ++ suffix).length := by
    have hlong := h.long
    rw [String.length_append]
    omega
  have hlong (short : String) (hshort : short.length ≤ 1) : s ++ suffix ≠ short := by
    intro heq
    rw [heq] at hlength
    omega
  simp [Path.isPart, hlong "" (by decide), hlong "." (by decide)]

/-- What has no separator only adds to the last piece. -/
theorem exists_splitAt_append (sep : Char) (s : List Char) :
    ∃ before last, ∀ t, sep ∉ t → splitAt sep (s ++ t) = before ++ [last ++ t] := by
  -- the pieces of the first text do not depend on what is appended
  induction s with
  | nil => exact ⟨[], [], fun t ht => splitAt_of_notMem ht⟩
  | cons c s ih =>
    obtain ⟨before, last, hsplit⟩ := ih
    by_cases hc : (c == sep) = true
    · refine ⟨[] :: before, last, fun t ht => ?_⟩
      simp only [List.cons_append, splitAt, if_pos hc, hsplit t ht]
    · cases before with
      | nil =>
        refine ⟨[], c :: last, fun t ht => ?_⟩
        simp only [List.cons_append, splitAt, if_neg hc, hsplit t ht, List.nil_append]
      | cons piece before =>
        refine ⟨(c :: piece) :: before, last, fun t ht => ?_⟩
        simp only [List.cons_append, splitAt, if_neg hc, hsplit t ht]

/-- Paths that differ in their suffix lead to different names in one directory. -/
theorem exists_below (stem : String) (hclean : '\x00' ∉ stem.toList) :
    ∃ way name, ∀ suffix, IsSuffix suffix →
      Below (origin (isAbsolute stem)) (way ++ [name ++ suffix]) (stem ++ suffix) := by
  obtain ⟨before, last, hsplit⟩ := exists_splitAt_append '/' stem.toList
  refine ⟨(before.map String.ofList).filter isPart, String.ofList last, fun suffix h => ?_⟩
  have hpieces : pieces (stem ++ suffix)
      = before.map String.ofList ++ [String.ofList last ++ suffix] := by
    unfold pieces
    rw [String.toList_append, hsplit suffix.toList h.slash, List.map_append, List.map_singleton,
      String.ofList_append, String.ofList_toList]
  refine ⟨?_, ?_, ?_, ?_⟩
  · rw [h.isAbsolute, isAbsolute_origin]
  · rw [parts, hpieces, List.filter_append, parts_origin]
    simp [h.isPart]
  · rw [String.toList_append, List.mem_append]
    exact fun hmem => hmem.elim hclean h.nul
  · rw [namesDirectory, hpieces, List.getLast?_concat]
    simp [h.isPart]

/-! ### The temporary file -/

/-- The name of the temporary file beside a record is none that a key gives to its
record or to its lock file. -/
theorem withExtension_cases (name : String) :
    withExtension (name ++ ".json") "json.tmp" = ".."
      ∨ ∃ before, withExtension (name ++ ".json") "json.tmp" = before ++ ".tmp"
        ∧ ∀ c ∈ before.toList, c ∈ name.toList ∨ c ∈ ".json".toList := by
  -- the extension of a name that is empty or a dot is not what one would expect
  by_cases hempty : name = ""
  · subst hempty
    refine .inr ⟨".json.json", rfl, fun c hc => .inr ?_⟩
    have htwice : ".json.json".toList = ".json".toList ++ ".json".toList := rfl
    rw [htwice] at hc
    exact (List.mem_append.mp hc).elim id id
  by_cases hdot : name = "."
  · subst hdot
    exact .inl (by decide)
  refine .inr ⟨name ++ ".json", ?_, fun c hc => ?_⟩
  · rw [withExtension_json hempty hdot, String.append_assoc]
    rfl
  · rwa [String.toList_append, List.mem_append] at hc

/-- It is a part of a path if the name of the record is one. -/
theorem isPart_withExtension {name : String} (hslash : '/' ∉ (name ++ ".json").toList)
    (hnul : '\x00' ∉ (name ++ ".json").toList) :
    isPart (withExtension (name ++ ".json") "json.tmp") = true
      ∧ '/' ∉ (withExtension (name ++ ".json") "json.tmp").toList
      ∧ '\x00' ∉ (withExtension (name ++ ".json") "json.tmp").toList := by
  rw [String.toList_append, List.mem_append] at hslash hnul
  rcases withExtension_cases name with hup | ⟨before, hbefore, hmem⟩
  · rw [hup]
    exact ⟨by decide, by decide, by decide⟩
  · rw [hbefore, String.toList_append, List.mem_append, List.mem_append]
    exact ⟨isSuffix_tmp.isPart before,
      fun hc => hc.elim (fun hc => hslash (hmem _ hc)) isSuffix_tmp.slash,
      fun hc => hc.elim (fun hc => hnul (hmem _ hc)) isSuffix_tmp.nul⟩

/-- A path from the root or from the working directory, taken apart. -/
theorem Below.taken {absolute : Bool} {way : List String} {path : String}
    (h : Below (origin absolute) way path) :
    Path.isAbsolute path = absolute ∧ Path.parts path = way
      ∧ ∀ part ∈ way, isPart part = true ∧ '/' ∉ part.toList ∧ '\x00' ∉ part.toList := by
  have hparts := h.parts
  rw [parts_origin, List.nil_append] at hparts
  refine ⟨h.absolute.trans (isAbsolute_origin absolute), hparts, fun part hpart => ?_⟩
  rw [← hparts] at hpart
  obtain ⟨hcounts, hmem⟩ := mem_of_mem_parts hpart
  exact ⟨hcounts, fun hc => (hmem _ hc).2 rfl, fun hc => h.clean (hmem _ hc).1⟩

/-- The temporary file of a record of any name is beside it. -/
theorem Below.beside {absolute : Bool} {way : List String} {name path : String}
    (h : Below (origin absolute) (way ++ [name ++ ".json"]) path) :
    Below (origin absolute) (way ++ [withExtension (name ++ ".json") "json.tmp"])
      (Path.temp path) := by
  obtain ⟨habsolute, hparts, hchars⟩ := h.taken
  have hpath : Path.temp path = ofParts (isAbsolute (origin absolute))
      (Path.parts (origin absolute) ++ (way ++ [withExtension (name ++ ".json") "json.tmp"])) := by
    rw [Path.temp, habsolute, hparts, tempFor, List.getLast?_concat, isAbsolute_origin,
      parts_origin, List.nil_append]
    simp only [List.dropLast_concat]
  rw [hpath]
  refine below_ofParts_of (clean_origin absolute) (by simp) fun part hpart => ?_
  rcases List.mem_append.mp hpart with hpart | hpart
  · exact hchars part (List.mem_append_left _ hpart)
  · rw [List.mem_singleton.mp hpart]
    obtain ⟨-, hslash, hnul⟩ := hchars (name ++ ".json") (by simp)
    exact isPart_withExtension hslash hnul

end Path

namespace Store.Directory

open FileTree

/-! ### The paths of a key -/

/-- The paths of a key: three names in a directory, and the way to it. -/
structure Layout (d : Directory) (key : Key) (absolute : Bool) (way : List String)
    (name temp : String) : Prop where
  record : Path.Below (Path.origin absolute) (way ++ [name ++ ".json"]) (d.recordPath key)
  lock : Path.Below (Path.origin absolute) (way ++ [name ++ ".lock"]) (d.lockPath key)
  beside : Path.Below (Path.origin absolute) (way ++ [temp]) (Path.temp (d.recordPath key))
  up : ∀ t : FileTree,
    t.createDirectories (Path.parent (d.recordPath key)) = t.makeWay (t.start absolute) way
  apart : ∀ other suffix, suffix = ".json" ∨ suffix = ".lock" → temp ≠ other ++ suffix

/-- The path of a record is that of its key with the ending of a record. -/
theorem recordPath_eq (d : Directory) (key : Key) :
    d.recordPath key = Path.join (d.spacePath key) key.name ++ ".json" :=
  Path.isSuffix_json.join _ _

/-- The path of a lock file is that of its key with the ending of a lock. -/
theorem lockPath_eq (d : Directory) (key : Key) :
    d.lockPath key = Path.join (d.spacePath key) key.name ++ ".lock" :=
  Path.isSuffix_lock.join _ _

/-- The directory that the way of a path leads to, put together again. -/
theorem createDirectories_ofParts {absolute : Bool} {way : List String}
    (h : ∀ part ∈ way, Path.isPart part = true ∧ '/' ∉ part.toList ∧ '\x00' ∉ part.toList)
    (t : FileTree) :
    t.createDirectories (Path.ofParts absolute way) = t.makeWay (t.start absolute) way := by
  have hpath : Path.isAbsolute (Path.ofParts absolute way) = absolute
      ∧ Path.parts (Path.ofParts absolute way) = way
      ∧ '\x00' ∉ (Path.ofParts absolute way).toList := by
    by_cases hway : way = []
    · subst hway
      cases absolute <;> exact ⟨by decide, by decide, by decide⟩
    · have hbelow := Path.below_ofParts_of (Path.clean_origin absolute) hway h
      rw [Path.isAbsolute_origin, Path.parts_origin, List.nil_append] at hbelow
      obtain ⟨habsolute, hparts, -⟩ := hbelow.taken
      exact ⟨habsolute, hparts, hbelow.clean⟩
  obtain ⟨habsolute, hparts, hclean⟩ := hpath
  unfold createDirectories
  rw [if_neg (by simpa using hclean), habsolute, hparts]
  rfl

/-- The name of a temporary file is never that of a record or of a lock file. -/
theorem temp_apart {temp : String}
    (htemp : temp = ".." ∨ ∃ before, temp = before ++ ".tmp") (other suffix : String)
    (hsuffix : suffix = ".json" ∨ suffix = ".lock") : temp ≠ other ++ suffix := by
  -- their last characters differ
  obtain ⟨c, hc, hne⟩ : ∃ c, suffix.toList.getLast? = some c ∧ c ≠ '.' ∧ c ≠ 'p' := by
    rcases hsuffix with rfl | rfl
    · exact ⟨'n', by decide, by decide⟩
    · exact ⟨'k', by decide, by decide⟩
  rcases htemp with rfl | ⟨before, rfl⟩
  · show "." ++ "." ≠ other ++ suffix
    exact append_ne '.' c rfl hc (Ne.symm hne.1)
  · exact append_ne 'p' c rfl hc (Ne.symm hne.2)

/-- The paths of every key can be taken apart, unless there is a NUL in them. -/
theorem exists_layout {d : Directory} {key : Key} (hclean : '\x00' ∉ (d.lockPath key).toList) :
    ∃ absolute way name temp, Layout d key absolute way name temp := by
  have hstem : '\x00' ∉ (Path.join (d.spacePath key) key.name).toList := by
    intro hmem
    rw [d.lockPath_eq, String.toList_append] at hclean
    exact hclean (List.mem_append_left _ hmem)
  obtain ⟨way, name, hbelow⟩ := Path.exists_below _ hstem
  have hrecord := hbelow ".json" Path.isSuffix_json
  have hlock := hbelow ".lock" Path.isSuffix_lock
  rw [← d.recordPath_eq] at hrecord
  rw [← d.lockPath_eq] at hlock
  -- all that matters of the key is the way and the name
  generalize Path.isAbsolute (Path.join (d.spacePath key) key.name) = absolute at hrecord hlock
  obtain ⟨habsolute, hparts, hchars⟩ := hrecord.taken
  refine ⟨absolute, way, name, _, hrecord, hlock, hrecord.beside, fun t => ?_, ?_⟩
  · rw [Path.parent, habsolute, hparts, List.dropLast_concat]
    exact createDirectories_ofParts (fun part hpart => hchars part (List.mem_append_left _ hpart)) t
  · have hcases := Path.withExtension_cases name
    exact temp_apart (hcases.imp_right (Exists.imp fun _ h => h.1))

/-! ### Keys that are in place -/

section

variable {d : Directory} {key : Key} {absolute : Bool} {way dir : List String}
  {name temp : String} {t t' : FileTree}

/-- The directory of a key is there, and so is its lock file. -/
structure InPlace (t : FileTree) (absolute : Bool) (way : List String) (name : String)
    (dir : List String) : Prop where
  leads : t.walk (t.start absolute) way = .ok dir
  directory : t.find dir = some .directory
  fits : (name ++ ".lock").utf8ByteSize ≤ nameLimit
  locked : ∃ bytes, t.find (dir ++ [name ++ ".lock"]) = some (.file bytes)

/-- A file of a key is one step from its directory. -/
theorem resolve_of_leads (hsound : t.IsSound) (hleads : t.walk (t.start absolute) way = .ok dir)
    {path file : String} (hpath : Path.Below (Path.origin absolute) (way ++ [file]) path) :
    t.resolve path = t.enter dir file := by
  rw [(hsound.isRoot absolute).resolve hpath, walk_append hleads]
  simp only [walk]
  cases t.enter dir file <;> rfl

/-- What stands behind the name of a key keeps it from going up. -/
theorem plain_of_suffix {suffix : String} (hsuffix : suffix = ".json" ∨ suffix = ".lock") :
    name ++ suffix ≠ ".." :=
  fun heq => temp_apart (.inl rfl) name suffix hsuffix heq.symm

/-- The record and the lock file of a key have names of one length. -/
theorem resolve_suffix_of_leads (hsound : t.IsSound)
    (hleads : t.walk (t.start absolute) way = .ok dir) (hdir : t.find dir = some .directory)
    (hfits : (name ++ ".lock").utf8ByteSize ≤ nameLimit) {path suffix : String}
    (hsuffix : suffix = ".json" ∨ suffix = ".lock")
    (hpath : Path.Below (Path.origin absolute) (way ++ [name ++ suffix]) path) :
    t.resolve path = .ok (dir ++ [name ++ suffix]) := by
  have hfits : (name ++ suffix).utf8ByteSize ≤ nameLimit := by
    rw [String.utf8ByteSize_append] at hfits ⊢
    rcases hsuffix with rfl | rfl <;> exact hfits
  rw [resolve_of_leads hsound hleads hpath, enter_plain hdir (plain_of_suffix hsuffix),
    if_neg (Nat.not_lt.mpr hfits)]

/-- Nothing has to be made on a way that leads to a directory. -/
theorem makeWay_of_leads (hleads : t.walk (t.start absolute) way = .ok dir)
    (hdir : t.find dir = some .directory) : t.makeWay (t.start absolute) way = (t, .ok ()) := by
  have happend : t.makeAll (t.start absolute) (way ++ []) = t.makeAll dir [] :=
    makeAll_append hleads hdir
  rw [List.append_nil] at happend
  rw [makeWay_of_walk hleads, happend]
  rfl

/-- Once a key is in place, a path to its record or its lock file leads there. -/
theorem InPlace.resolve_suffix (h : InPlace t absolute way name dir) (hsound : t.IsSound)
    {path suffix : String} (hsuffix : suffix = ".json" ∨ suffix = ".lock")
    (hpath : Path.Below (Path.origin absolute) (way ++ [name ++ suffix]) path) :
    t.resolve path = .ok (dir ++ [name ++ suffix]) :=
  resolve_suffix_of_leads hsound h.leads h.directory h.fits hsuffix hpath

/-- Once a key is in place, the path of its record leads there. -/
theorem InPlace.resolve_record (h : InPlace t absolute way name dir) (hsound : t.IsSound)
    (hlayout : Layout d key absolute way name temp) :
    t.resolve (d.recordPath key) = .ok (dir ++ [name ++ ".json"]) :=
  h.resolve_suffix hsound (.inl rfl) hlayout.record

/-- A key stays in place when nothing but files is replaced, and not its lock file. -/
theorem InPlace.keeps (h : InPlace t absolute way name dir) {files : List (List String)}
    (hchange : ChangesOnly [] files t t') (hlock : dir ++ [name ++ ".lock"] ∉ files) :
    InPlace t' absolute way name dir := by
  obtain ⟨bytes, hlocked⟩ := h.locked
  refine ⟨?_, hchange.kept dir h.directory, h.fits, bytes, ?_⟩
  · rw [hchange.start_eq absolute]
    exact walk_keeps hchange.kept h.leads
  · rw [hchange.others _ (by simp) hlock]
    exact hlocked

/-- Nothing has to be made for a key that is in place. -/
theorem InPlace.prepare (h : InPlace t absolute way name dir) (hsound : t.IsSound)
    (hlayout : Layout d key absolute way name temp) : d.prepare key t = (t, .ok ()) := by
  obtain ⟨bytes, hlocked⟩ := h.locked
  have htouch : t.touch (d.lockPath key) = .ok t := by
    simp only [touch, h.resolve_suffix hsound (.inr rfl) hlayout.lock, bind, Except.bind, hlocked]
    rfl
  unfold Directory.prepare
  rw [hlayout.up, makeWay_of_leads h.leads h.directory]
  simp only [htouch]

/-- A file that was opened for writing is there, and it was there before or has just
been made. -/
theorem touch_ok {path : String} {place : List String} (hresolve : t.resolve path = .ok place)
    (hne : place ≠ []) (h : t.touch path = .ok t') :
    ChangesOnly [] [place] t t' ∧ ∃ bytes, t'.find place = some (.file bytes) := by
  simp only [touch, hresolve, bind, Except.bind] at h
  cases hfind : t.find place with
  | none =>
    simp only [hfind, pure, Except.pure, Except.ok.injEq] at h
    subst h
    exact ⟨.puts [] hne (by simp [hfind]), [], t.find_put_self _ _ hne⟩
  | some node =>
    cases node with
    | directory => simp [hfind, throw, throwThe, MonadExceptOf.throw] at h
    | file bytes =>
      simp only [hfind, pure, Except.pure, Except.ok.injEq] at h
      subst h
      exact ⟨.refl [] [place] t, bytes, hfind⟩

/-- A key for which everything was made is in place. -/
theorem inPlace_of_prepare (hsound : t.IsSound) (hlayout : Layout d key absolute way name temp)
    (h : d.prepare key t = (t', .ok ())) : ∃ dir, InPlace t' absolute way name dir := by
  unfold Directory.prepare at h
  rw [hlayout.up] at h
  generalize hmade : t.makeWay (t.start absolute) way = made at h
  obtain ⟨t₁, result⟩ := made
  cases result with
  | error e => cases h
  | ok u =>
    obtain ⟨dir, hleads, hdir, directories, hchange⟩ :=
      makeAll_ok (makeAll_of_makeWay hmade) (hsound.find_start absolute)
    rw [← hchange.start_eq absolute] at hleads
    -- the way was made in a tree that is sound, so the lock file is one step further
    have hsound₁ : t₁.IsSound := by
      have hevolves := makeWay_evolves t (t.start absolute) way
      rw [hmade] at hevolves
      exact hevolves.sound hsound
    have hresolve := resolve_of_leads hsound₁ hleads hlayout.lock
    rw [enter_plain hdir (plain_of_suffix (.inr rfl))] at hresolve
    by_cases hfits : nameLimit < (name ++ ".lock").utf8ByteSize
    · rw [if_pos hfits] at hresolve
      simp [touch, hresolve, bind, Except.bind] at h
    rw [if_neg hfits] at hresolve
    cases htouch : t₁.touch (d.lockPath key) with
    | error e => simp [htouch] at h
    | ok t₂ =>
      simp only [htouch, Prod.mk.injEq, and_true] at h
      subst h
      obtain ⟨hchange', bytes, hlocked⟩ := touch_ok hresolve (by simp) htouch
      rw [← hchange'.start_eq absolute] at hleads
      exact ⟨dir, walk_keeps hchange'.kept hleads, hchange'.kept dir hdir, Nat.not_lt.mp hfits,
        bytes, hlocked⟩

/-! ### A call about a key that is in place -/

/-- The place of the record of a key. -/
def recordIn (dir : List String) (name : String) : List String := dir ++ [name ++ ".json"]

/-- A lookup makes nothing, and tells what is in the record file. -/
theorem InPlace.answer_get (h : InPlace t absolute way name dir) (hsound : t.IsSound)
    (hlayout : Layout d key absolute way name temp) :
    d.answer t key .get = (t, match contentAt t (recordIn dir name) with
      | .ok current => .found current
      | .error e => .failed e) := by
  have hread := readRecord_of_resolve (h.resolve_record hsound hlayout)
  unfold answer
  rw [h.prepare hsound hlayout]
  simp only [hread]
  show _ = (t, match contentAt t (dir ++ [name ++ ".json"]) with
    | .ok current => Reply.found current
    | .error e => .failed e)
  cases contentAt t (dir ++ [name ++ ".json"]) <;> rfl

/-- Writing a record changes nothing, or puts the record in its place by way of the
temporary file. -/
theorem InPlace.land_cases (h : InPlace t absolute way name dir) (hsound : t.IsSound)
    (hlayout : Layout d key absolute way name temp)
    (hfile : t.find (recordIn dir name) ≠ some .directory) (stored : Versioned Record) :
    (∃ e, land t (d.recordPath key) stored = (t, .failed (.io e)))
      ∨ ∃ t', land t (d.recordPath key) stored = (t', .written stored.version)
        ∧ ChangesOnly [] [dir ++ [temp], recordIn dir name] t t'
        ∧ t'.find (recordIn dir name) = some (.file stored.fileBytes) := by
  have hresolve := resolve_of_leads hsound h.leads hlayout.beside
  by_cases hup : temp = ".."
  · -- the temporary file would be the parent of the directory
    have hparent : t.resolve (Path.temp (d.recordPath key)) = .ok dir.dropLast := by
      rw [hresolve, hup]
      simp [enter, h.directory]
    have hdir := hsound.parents dir h.directory
    refine .inl ⟨.isDirectory, ?_⟩
    simp [land, writeRecord, write_directory hparent hdir]
  by_cases hlong : nameLimit < temp.utf8ByteSize
  · rw [enter_plain h.directory hup, if_pos hlong] at hresolve
    exact .inl ⟨_, land_refused hresolve stored⟩
  have hapart : dir ++ [name ++ ".json"] ≠ dir ++ [temp] := by
    simpa using fun heq => hlayout.apart name ".json" (.inl rfl) (Eq.symm heq)
  -- the temporary file is neither the record nor the lock file, so the paths lead to the
  -- same places after it was written
  have hkeeps : ∀ t', ChangesOnly [] [dir ++ [temp]] t t' →
      t'.IsSound ∧ InPlace t' absolute way name dir := by
    intro t' hchange
    refine ⟨hchange.evolves.sound hsound, h.keeps hchange ?_⟩
    simpa using fun heq => hlayout.apart name ".lock" (.inr rfl) (Eq.symm heq)
  have hrecord : ∀ t', ChangesOnly [] [dir ++ [temp]] t t' →
      t'.resolve (d.recordPath key) = .ok (recordIn dir name) := by
    intro t' hchange
    obtain ⟨hsound', h'⟩ := hkeeps t' hchange
    exact h'.resolve_record hsound' hlayout
  have htemp : ∀ t', ChangesOnly [] [dir ++ [temp]] t t' →
      t'.resolve (Path.temp (d.recordPath key)) = .ok (dir ++ [temp]) := by
    intro t' hchange
    obtain ⟨hsound', h'⟩ := hkeeps t' hchange
    rw [resolve_of_leads hsound' h'.leads hlayout.beside, enter_plain h'.directory hup,
      if_neg hlong]
  rcases land_cases_of hrecord htemp (by simp [recordIn]) (by simp) hapart hfile stored with
    ⟨hland, -⟩ | hland
  · exact .inl ⟨_, hland⟩
  · exact .inr hland

/-- What a call about a key that is in place does: nothing, or it writes a record of
the next version. -/
inductive Treated (record temp : List String) (t : FileTree) : FileTree → Reply → Prop
  | left {reply : Reply} (hreply : ∀ version, reply ≠ .written version) :
      Treated record temp t t reply
  | written {t' : FileTree} {current : Option (Versioned Record)} {stored : Versioned Record}
      (hcontent : contentAt t record = .ok current)
      (hversion : stored.version = versionOf current + 1)
      (hchange : ChangesOnly [] [temp, record] t t')
      (hfind : t'.find record = some (.file stored.fileBytes)) :
      Treated record temp t t' (.written stored.version)

/-- Landing the next version of a record treats its key: the record is replaced, or nothing is. -/
theorem InPlace.treated_land (h : InPlace t absolute way name dir) (hsound : t.IsSound)
    (hlayout : Layout d key absolute way name temp) {current : Option (Versioned Record)}
    {stored : Versioned Record} (hcontent : contentAt t (recordIn dir name) = .ok current)
    (hversion : stored.version = versionOf current + 1) :
    Treated (recordIn dir name) (dir ++ [temp]) t (land t (d.recordPath key) stored).1
      (land t (d.recordPath key) stored).2 := by
  have hfile : t.find (recordIn dir name) ≠ some .directory := by
    intro hdir
    simp [contentAt, hdir] at hcontent
  rcases h.land_cases hsound hlayout hfile stored with ⟨e, hland⟩ | ⟨t', hland, hchange, hfind⟩
  · rw [hland]
    exact .left (by simp)
  · rw [hland]
    exact .written hcontent hversion hchange hfind

/-- Every call about a key that is in place is one of these. -/
theorem InPlace.answer_treated (h : InPlace t absolute way name dir) (hsound : t.IsSound)
    (hlayout : Layout d key absolute way name temp) (request : Request) :
    Treated (recordIn dir name) (dir ++ [temp]) t (d.answer t key request).1
      (d.answer t key request).2 := by
  have hread : readRecord t (d.recordPath key) = contentAt t (recordIn dir name) :=
    readRecord_of_resolve (h.resolve_record hsound hlayout)
  unfold answer
  rw [h.prepare hsound hlayout]
  simp only [hread]
  cases hcontent : contentAt t (recordIn dir name) with
  | error e => exact .left (by simp)
  | ok current =>
    -- a lookup writes nothing, and the others write only what is due by what is there
    cases request with
    | get => exact .left (by simp)
    | create record =>
      cases current with
      | none => exact h.treated_land hsound hlayout hcontent rfl
      | some stored => exact .left (by simp)
    | update record expected =>
      cases current with
      | none => exact .left (by simp)
      | some stored =>
        by_cases hversion : stored.version = expected
        · simp only [if_pos hversion]
          exact h.treated_land hsound hlayout hcontent rfl
        · simp only [if_neg hversion]
          exact .left (by simp)

end

end Store.Directory

end Tenure
