import Tenure.Defaults.Directory
import Tenure.Proofs.Defaults.Difference

/-!
# `Tenure.Proofs.Defaults.Population`: what a directory defines

A file defines something if its extension is `json` or `toml`. It is at fault if it cannot be
read as a text, if the text does not parse, or if an earlier file has defined its name
(`Fault`); what it says of the name counts only if it parses, so a file that does not parse
never repeats a name. Files are taken in ascending order of their names, whatever order they
are listed in, and the first one that is at fault is the error.

A directory has each name once. Its listing is a list of names and nodes in no particular
order.

* `filesOf_perm`: the order of a listing does not matter.
* `addFile_spec`, `addFiles_spec`: what one file adds, and what some of them come to.
* `FirstFault.unique`: there is one first fault at most.
* `populate_exact`: when a directory can be populated from with a parser, what is defined then,
  and what the error is otherwise.
-/

set_option autoImplicit false

namespace Tenure

/-- Inserting under one name leaves what every other name finds. -/
theorem Json.lookup_insertMember_other {α : Type} {name other : String} (hne : other ≠ name)
    (value : α) (members : List (String × α)) :
    lookup other (insertMember name value members) = lookup other members := by
  induction members with
  | nil => simp [insertMember, lookup, hne.symm]
  | cons first rest ih =>
    obtain ⟨n, v⟩ := first
    unfold insertMember
    split
    · simp [lookup, hne.symm]
    · split
      · rename_i heq
        obtain rfl : name = n := by simpa using heq
        simp [lookup, hne.symm]
      · rw [lookup, lookup, ih]

/-- A path that can be listed names a directory. -/
theorem FileTree.isDirectory_of_list {t : FileTree} {path : String}
    {entries : List (String × Node)} (h : t.list path = .ok entries) :
    t.isDirectory path = true := by
  simp only [list, bind, Except.bind] at h
  split at h
  · cases h
  · rename_i place hresolve
    split at h
    · cases h
    · cases h
    · rename_i hdir
      simp [isDirectory, lookup, hresolve, hdir, bind, Except.bind, pure, Except.pure]

namespace Defaults

/-! ### Files that define something -/

/-- The extension of the files in a language. -/
def Format.extension : Format → String
  | json => "json"
  | toml => "toml"

/-- An extension selects a format just where it is that format's own. -/
theorem Format.ofExtension?_eq_some_iff {extension : String} {format : Format} :
    ofExtension? extension = some format ↔ extension = format.extension := by
  constructor
  · intro h
    unfold ofExtension? at h
    split at h
    · cases h
      rfl
    · cases h
      rfl
    · cases h
  · rintro rfl
    cases format <;> rfl

/-- A file is read in the format whose extension its name carries. -/
theorem formatOf?_eq_some_iff {name : String} {format : Format} :
    formatOf? name = some format ↔ Path.extension? name = some format.extension := by
  unfold formatOf?
  cases Path.extension? name with
  | none => simp
  | some extension => simpa using Format.ofExtension?_eq_some_iff

/-- A file of this name defines something. -/
def IsDefinition (name : String) : Prop :=
  Path.extension? name = some "json" ∨ Path.extension? name = some "toml"

instance (name : String) : Decidable (IsDefinition name) := inferInstanceAs (Decidable (_ ∨ _))

/-- A file is a definition just where its extension is one of a format's. -/
theorem isDefinition_iff {name : String} :
    IsDefinition name ↔ ∃ format : Format, Path.extension? name = some format.extension := by
  constructor
  · rintro (h | h)
    · exact ⟨.json, h⟩
    · exact ⟨.toml, h⟩
  · rintro ⟨format, h⟩
    cases format with
    | json => exact .inl h
    | toml => exact .inr h

/-- A file, with its name and its content, is in a directory with these entries. -/
def IsFile (entries : List (String × Node)) (file : String × List UInt8) : Prop :=
  (file.1, Node.file file.2) ∈ entries

instance (entries : List (String × Node)) (file : String × List UInt8) :
    Decidable (IsFile entries file) := inferInstanceAs (Decidable (_ ∈ _))

/-- What comes of reading a file that defines something. -/
inductive Reads (parse : Parser) (directory : String) :
    String × List UInt8 → Except DefaultsError Json.Value → Prop
  | unreadable {name : String} {content : List UInt8} (hname : IsDefinition name)
      (htext : Text.ofUtf8? content = none) : Reads parse directory (name, content)
        (.error (.unreadable (Path.join directory name) "stream did not contain valid UTF-8"))
  | malformed {name text detail : String} {content : List UInt8} (format : Format)
      (hname : Path.extension? name = some format.extension)
      (htext : Text.ofUtf8? content = some text) (hparse : parse format text = .error detail) :
      Reads parse directory (name, content)
        (.error (.malformed (Path.join directory name) detail))
  | parsed {name text : String} {content : List UInt8} {value : Json.Value} (format : Format)
      (hname : Path.extension? name = some format.extension)
      (htext : Text.ofUtf8? content = some text) (hparse : parse format text = .ok value) :
      Reads parse directory (name, content) (.ok value)

/-- What is wrong with a file of a directory. -/
inductive Fault (parse : Parser) (directory : String) (entries : List (String × Node)) :
    String × List UInt8 → DefaultsError → Prop
  | refused {file : String × List UInt8} {e : DefaultsError}
      (hreads : Reads parse directory file (.error e)) : Fault parse directory entries file e
  /-- It gives a value to a name that an earlier file defines. -/
  | repeated {file earlier : String × List UInt8} {value : Json.Value}
      (hreads : Reads parse directory file (.ok value)) (hearlier : IsFile entries earlier)
      (hname : IsDefinition earlier.1) (hlt : earlier.1 < file.1)
      (hstem : Path.stem earlier.1 = Path.stem file.1) :
      Fault parse directory entries file (.duplicate (Path.stem file.1))

/-- Of some files those that define something parse, and no two of them define the same
name. -/
structure Loadable (parse : Parser) (directory : String) (Present : String × List UInt8 → Prop) :
    Prop where
  reads : ∀ file, Present file → IsDefinition file.1 →
    ∃ value, Reads parse directory file (.ok value)
  eq_of_stem : ∀ file other, Present file → Present other → IsDefinition file.1 →
    IsDefinition other.1 → Path.stem file.1 = Path.stem other.1 → file = other

/-- The first file that is at fault, in the order of the names. -/
structure FirstFault (parse : Parser) (directory : String) (entries : List (String × Node))
    (file : String × List UInt8) (e : DefaultsError) : Prop where
  isFile : IsFile entries file
  fault : Fault parse directory entries file e
  first : ∀ other, IsFile entries other → other.1 < file.1 →
    ∀ e', ¬ Fault parse directory entries other e'

variable {parse : Parser} {directory : String} {entries entries' : List (String × Node)}
  {file other : String × List UInt8} {before after : List (String × List UInt8)}
  {result result' : Except DefaultsError Json.Value} {d d' : Defaults} {e e' : DefaultsError}

/-- A file that defines something is loaded in its language. -/
theorem reads_iff : Reads parse directory file result ↔ ∃ format,
    formatOf? file.1 = some format
      ∧ load parse (Path.join directory file.1) format file.2 = result := by
  simp only [formatOf?_eq_some_iff]
  -- one case for a text that cannot be read, one for a parser that refuses it, one for a value
  constructor
  · intro h
    cases h with
    | unreadable hname htext =>
      obtain ⟨format, hformat⟩ := isDefinition_iff.mp hname
      exact ⟨format, hformat, by simp [load, htext]⟩
    | malformed format hname htext hparse => exact ⟨format, hname, by simp [load, htext, hparse]⟩
    | parsed format hname htext hparse => exact ⟨format, hname, by simp [load, htext, hparse]⟩
  · rintro ⟨format, hname, rfl⟩
    unfold load
    split
    · rename_i htext
      exact .unreadable (isDefinition_iff.mpr ⟨format, hname⟩) htext
    · rename_i text htext
      split
      · rename_i hparse
        exact .malformed format hname htext hparse
      · rename_i value hparse
        exact .parsed format hname htext hparse

/-- The result of reading a file is determined by the file. -/
theorem Reads.unique (h : Reads parse directory file result)
    (h' : Reads parse directory file result') : result = result' := by
  obtain ⟨format, hformat, hload⟩ := reads_iff.mp h
  obtain ⟨format', hformat', hload'⟩ := reads_iff.mp h'
  obtain rfl : format = format' := Option.some.inj (hformat.symm.trans hformat')
  exact hload.symm.trans hload'

/-- Just the definitions are read at all; every other file is passed over. -/
theorem exists_reads_iff : (∃ result, Reads parse directory file result) ↔ IsDefinition file.1 := by
  simp [reads_iff, isDefinition_iff, formatOf?_eq_some_iff]

/-- Only a definition can be at fault. -/
theorem Fault.isDefinition (h : Fault parse directory entries file e) : IsDefinition file.1 := by
  cases h with
  | refused hreads => exact exists_reads_iff.mp ⟨_, hreads⟩
  | repeated hreads => exact exists_reads_iff.mp ⟨_, hreads⟩

/-- A file is at fault in one way at most. -/
theorem Fault.unique (h : Fault parse directory entries file e)
    (h' : Fault parse directory entries file e') : e = e' := by
  cases h with
  | refused hreads =>
    cases h' with
    | refused hreads' => exact Except.error.inj (hreads.unique hreads')
    | repeated hreads' => cases hreads.unique hreads'
  | repeated hreads =>
    cases h' with
    | refused hreads' => cases hreads.unique hreads'
    | repeated => rfl

/-- In a directory there is one file of a name at most. -/
theorem IsFile.unique (hnames : (entries.map Prod.fst).Nodup) (h : IsFile entries file)
    (h' : IsFile entries other) (heq : file.1 = other.1) : file = other := by
  have hentry := List.inj_on_of_nodup_map hnames h h' heq
  exact Prod.ext heq (Node.file.inj (congrArg Prod.snd hentry))

/-- A directory whose names are all different has one first fault at most. -/
theorem FirstFault.unique (hnames : (entries.map Prod.fst).Nodup)
    (h : FirstFault parse directory entries file e)
    (h' : FirstFault parse directory entries other e') : e = e' := by
  rcases Std.lt_trichotomy file.1 other.1 with hlt | heq | hgt
  · exact absurd h.fault (h'.first file h.isFile hlt e)
  · obtain rfl := h.isFile.unique hnames h'.isFile heq
    exact h.fault.unique h'.fault
  · exact absurd h'.fault (h.first other h'.isFile hgt e')

/-- No file is at fault among those that can be loaded together. -/
theorem Loadable.not_fault {Present : String × List UInt8 → Prop}
    (h : Loadable parse directory Present) (hfile : Present file)
    (hclosed : ∀ other, IsFile entries other → other.1 < file.1 → Present other) :
    ¬ Fault parse directory entries file e := by
  intro hfault
  obtain ⟨value, hreads⟩ := h.reads file hfile hfault.isDefinition
  cases hfault with
  | refused hrefused => cases hrefused.unique hreads
  | @repeated earlier _ _ hearlier hname hlt hstem =>
    have heq := h.eq_of_stem earlier file (hclosed earlier hearlier hlt) hfile hname
      (exists_reads_iff.mp ⟨_, hreads⟩) hstem
    rw [heq] at hlt
    exact String.lt_irrefl _ hlt

/-! ### The order of the files -/

/-- The files to be read are the entries of the directory that are files. -/
theorem mem_filesOf : file ∈ filesOf entries ↔ IsFile entries file := by
  simp only [filesOf, List.mem_mergeSort, List.mem_filterMap, Prod.exists, IsFile]
  constructor
  · rintro ⟨name, node, hmem, hnode⟩
    cases node with
    | file content =>
      cases hnode
      exact hmem
    | directory => cases hnode
  · intro hmem
    exact ⟨_, _, hmem, rfl⟩

/-- The files come in ascending order of their names. -/
theorem pairwise_filesOf (hnames : (entries.map Prod.fst).Nodup) :
    (filesOf entries).Pairwise fun f g => f.1 < g.1 := by
  have hsorted : (filesOf entries).Pairwise fun f g => decide (f.1 ≤ g.1) = true := by
    refine List.pairwise_mergeSort (fun f g h hfg hgh => ?_) (fun f g => ?_) _
    · exact decide_eq_true (String.le_trans (of_decide_eq_true hfg) (of_decide_eq_true hgh))
    · simpa using String.le_total f.1 g.1
  have hapart : (filesOf entries).Pairwise fun f g => f.1 ≠ g.1 := by
    refine ((List.mergeSort_perm _ _).pairwise_iff Ne.symm).mpr ?_
    refine List.Pairwise.filterMap _ ?_ (List.pairwise_map.mp hnames)
    rintro ⟨m, _ | _⟩ ⟨n, _ | _⟩ hne f hf g hg <;> cases hf <;> cases hg
    exact hne
  exact (hsorted.and hapart).imp fun h => Std.lt_of_le_of_ne (of_decide_eq_true h.1) h.2

/-- The order in which a directory is listed does not matter. -/
theorem filesOf_perm (hnames : (entries.map Prod.fst).Nodup) (hperm : entries.Perm entries') :
    filesOf entries = filesOf entries' := by
  have hnames' : (entries'.map Prod.fst).Nodup := (hperm.map _).nodup_iff.mp hnames
  have hfiles : (filesOf entries).Perm (filesOf entries') :=
    (List.mergeSort_perm _ _).trans ((hperm.filterMap _).trans (List.mergeSort_perm _ _).symm)
  exact hfiles.eq_of_pairwise (fun _ _ _ _ h h' => absurd h' (String.lt_asymm h))
    (pairwise_filesOf hnames) (pairwise_filesOf hnames')

/-- The files before one of them are those whose names are smaller. -/
theorem mem_before_iff (hnames : (entries.map Prod.fst).Nodup)
    (hfiles : filesOf entries = before ++ file :: after) :
    other ∈ before ↔ IsFile entries other ∧ other.1 < file.1 := by
  have hsorted := pairwise_filesOf hnames
  rw [hfiles, List.pairwise_append, List.pairwise_cons] at hsorted
  obtain ⟨-, ⟨hafter, -⟩, hbefore⟩ := hsorted
  rw [← mem_filesOf, hfiles, List.mem_append, List.mem_cons]
  constructor
  · intro hmem
    exact ⟨.inl hmem, hbefore other hmem file List.mem_cons_self⟩
  · rintro ⟨hmem | rfl | hmem, hlt⟩
    · exact hmem
    · exact absurd hlt (String.lt_irrefl _)
    · exact absurd hlt (String.lt_asymm (hafter other hmem))

/-! ### One file after another -/

/-- Some files are loaded, and nothing else is defined. -/
structure Loaded (parse : Parser) (directory : String) (files : List (String × List UInt8))
    (d : Defaults) : Prop where
  get?_iff : ∀ name value, d.get? name = some value
    ↔ ∃ file ∈ files, Reads parse directory file (.ok value) ∧ Path.stem file.1 = name
  loadable : Loadable parse directory (· ∈ files)

/-- With no file read, the defaults are empty. -/
theorem loaded_nil : Loaded parse directory [] empty where
  get?_iff name value := by simp [get?, empty, Json.lookup]
  loadable := ⟨nofun, nofun⟩

/-- A name is taken if a file defines it. -/
theorem Loaded.isSome_get?_iff (h : Loaded parse directory before d) {name : String} :
    (d.get? name).isSome = true
      ↔ ∃ file ∈ before, IsDefinition file.1 ∧ Path.stem file.1 = name := by
  rw [Option.isSome_iff_exists]
  constructor
  · rintro ⟨value, hvalue⟩
    obtain ⟨file, hmem, hreads, hstem⟩ := (h.get?_iff name value).mp hvalue
    exact ⟨file, hmem, exists_reads_iff.mp ⟨_, hreads⟩, hstem⟩
  · rintro ⟨file, hmem, hname, hstem⟩
    obtain ⟨value, hreads⟩ := h.loadable.reads file hmem hname
    exact ⟨value, (h.get?_iff name value).mpr ⟨file, hmem, hreads, hstem⟩⟩

/-- Another file can be loaded if it defines nothing, or gives a value to a name that is still
free. -/
theorem Loadable.concat (h : Loadable parse directory (· ∈ before))
    (hreads : IsDefinition file.1 → ∃ value, Reads parse directory file (.ok value))
    (hfree : IsDefinition file.1 → ∀ other ∈ before, IsDefinition other.1 →
      Path.stem other.1 ≠ Path.stem file.1) : Loadable parse directory (· ∈ before ++ [file]) where
  reads other hmem hother := by
    rcases List.mem_append.mp hmem with hmem | hmem
    · exact h.reads other hmem hother
    · cases List.mem_singleton.mp hmem
      exact hreads hother
  eq_of_stem f g hf hg hfname hgname hstem := by
    rcases List.mem_append.mp hf with hf | hf <;> rcases List.mem_append.mp hg with hg | hg
    · exact h.eq_of_stem f g hf hg hfname hgname hstem
    · cases List.mem_singleton.mp hg
      exact absurd hstem (hfree hgname f hf hfname)
    · cases List.mem_singleton.mp hf
      exact absurd hstem.symm (hfree hfname g hg hgname)
    · rw [List.mem_singleton.mp hf, List.mem_singleton.mp hg]

/-- A file that defines nothing is passed over. -/
theorem Loaded.skip (h : Loaded parse directory before d) (hname : ¬ IsDefinition file.1) :
    Loaded parse directory (before ++ [file]) d where
  get?_iff name value := by
    have hnone (value : Json.Value) : ¬ Reads parse directory file (.ok value) := fun hreads =>
      hname (exists_reads_iff.mp ⟨_, hreads⟩)
    simp [h.get?_iff, hnone]
  loadable := h.loadable.concat (fun hfile => absurd hfile hname) fun hfile => absurd hfile hname

/-- Inserting one entry leaves every other. -/
theorem get?_insert_other {name other : String} (hne : other ≠ name) (d : Defaults)
    (value : Json.Value) : (d.insert name value).get? other = d.get? other :=
  Json.lookup_insertMember_other hne value d.definitions

/-- A file gives a value to a name that is still free. -/
theorem Loaded.insert (h : Loaded parse directory before d) {value : Json.Value}
    (hreads : Reads parse directory file (.ok value)) (hfree : d.get? (Path.stem file.1) = none) :
    Loaded parse directory (before ++ [file]) (d.insert (Path.stem file.1) value) where
  get?_iff name other := by
    simp only [List.mem_append, List.mem_singleton, or_and_right, exists_or, exists_eq_left]
    rw [← h.get?_iff]
    -- under the stem of the file nothing was loaded before, so what is there now comes from it
    by_cases hname : name = Path.stem file.1
    · subst hname
      rw [get?_insert_self, hfree]
      constructor
      · intro heq
        cases heq
        exact .inr ⟨hreads, rfl⟩
      · rintro (hold | ⟨hother, -⟩)
        · cases hold
        · cases hreads.unique hother
          rfl
    · simp [get?_insert_other hname, Ne.symm hname]
  loadable := by
    refine h.loadable.concat (fun _ => ⟨value, hreads⟩) fun _ other hmem hother hstem => ?_
    have htaken := h.isSome_get?_iff.mpr ⟨other, hmem, hother, hstem⟩
    -- a definition with this stem would have taken the name
    rw [hfree] at htaken
    cases htaken

/-- A file is loaded after those before it, or is at fault. -/
theorem addFile_spec (h : Loaded parse directory before d)
    (hbefore : ∀ other ∈ before, IsFile entries other ∧ other.1 < file.1) :
    match addFile parse directory d file.1 file.2 with
    | .ok d' => Loaded parse directory (before ++ [file]) d'
    | .error e => Fault parse directory entries file e := by
  unfold addFile
  cases hformat : formatOf? file.1 with
  | none =>
    refine h.skip fun hname => ?_
    obtain ⟨format, hsome⟩ := isDefinition_iff.mp hname
    rw [formatOf?_eq_some_iff.mpr hsome] at hformat
    cases hformat
  | some format =>
    cases hload : load parse (Path.join directory file.1) format file.2 with
    | error e => simpa [hload] using Fault.refused (reads_iff.mpr ⟨format, hformat, hload⟩)
    | ok value =>
      have hreads : Reads parse directory file (.ok value) :=
        reads_iff.mpr ⟨format, hformat, hload⟩
      simp only [hload]
      -- a name that is taken was taken by a file that has been loaded, and that one comes before
      cases htaken : d.get? (Path.stem file.1) with
      | none => simpa using h.insert hreads htaken
      | some old =>
        obtain ⟨earlier, hmem, hname, hstem⟩ :=
          h.isSome_get?_iff.mp (Option.isSome_of_eq_some htaken)
        obtain ⟨hearlier, hlt⟩ := hbefore earlier hmem
        simpa using Fault.repeated hreads hearlier hname hlt hstem

/-- All files are loaded, or one of them is the first at fault. -/
theorem addFiles_spec (hnames : (entries.map Prod.fst).Nodup)
    (hfiles : filesOf entries = before ++ after) (h : Loaded parse directory before d) :
    match addFiles parse directory d after with
    | .ok d' => Loaded parse directory (filesOf entries) d'
    | .error e => ∃ file, FirstFault parse directory entries file e := by
  -- on the files still to come; those before them have been loaded into what there is
  induction after generalizing before d with
  | nil =>
    rw [List.append_nil] at hfiles
    rw [hfiles]
    exact h
  | cons file rest ih =>
    have hbefore (other : String × List UInt8) :
        other ∈ before ↔ IsFile entries other ∧ other.1 < file.1 := mem_before_iff hnames hfiles
    have hspec := addFile_spec h fun other => (hbefore other).mp
    rw [addFiles]
    cases hadd : addFile parse directory d file.1 file.2 with
    | error e =>
      rw [hadd] at hspec
      refine ⟨file, ?_, hspec, fun other hother hlt e' => ?_⟩
      · rw [← mem_filesOf, hfiles]
        simp
      · -- the files before this one have been loaded
        exact h.loadable.not_fault ((hbefore other).mpr ⟨hother, hlt⟩) fun earlier hearlier hlt' =>
          (hbefore earlier).mpr ⟨hearlier, String.lt_trans hlt' hlt⟩
    | ok d' =>
      rw [hadd] at hspec
      exact ih (by simpa using hfiles) hspec

/-! ### A whole directory -/

/-- The defaults are what the files of a directory define. -/
structure DefinedIn (parse : Parser) (directory : String) (entries : List (String × Node))
    (d : Defaults) : Prop where
  /-- The names ascend, so that none comes twice. -/
  ascending : d.names.Pairwise (· < ·)
  /-- They are the stems of the files that define something. -/
  mem_names_iff : ∀ name, name ∈ d.names
    ↔ ∃ file, IsFile entries file ∧ IsDefinition file.1 ∧ Path.stem file.1 = name
  /-- Each of them has the value that its file gives. -/
  get?_iff : ∀ name value, d.get? name = some value
    ↔ ∃ file, IsFile entries file ∧ Reads parse directory file (.ok value) ∧ Path.stem file.1 = name

/-- What loading every file of the directory leaves is what the directory defines. -/
theorem Loaded.definedIn (h : Loaded parse directory (filesOf entries) d) :
    DefinedIn parse directory entries d where
  ascending := List.pairwise_map.mpr d.ascending
  mem_names_iff name := by simp only [mem_names, h.isSome_get?_iff, mem_filesOf]
  get?_iff name value := by simp only [h.get?_iff, mem_filesOf]

/-- Once every file has been loaded, the directory as a whole is loadable. -/
theorem Loaded.loadable_directory (h : Loaded parse directory (filesOf entries) d) :
    Loadable parse directory (IsFile entries) := by
  simpa only [mem_filesOf] using h.loadable

/-- Once the directory lists, populating is adding its files one after the other to nothing. -/
theorem populate_eq {files : FileTree} (hlist : files.list directory = .ok entries) :
    populateBy parse files (some directory) = addFiles parse directory empty (filesOf entries) := by
  simp only [populateBy, FileTree.isDirectory_of_list hlist, if_true, hlist, ofEntries]

/-- A directory is populated from, or has a first file at fault. -/
theorem populate_spec (parse : Parser) {files : FileTree}
    (hlist : files.list directory = .ok entries) (hnames : (entries.map Prod.fst).Nodup) :
    match populateBy parse files (some directory) with
    | .ok d => Loaded parse directory (filesOf entries) d
    | .error e => ∃ file, FirstFault parse directory entries file e := by
  rw [populate_eq hlist]
  exact addFiles_spec hnames (List.nil_append _).symm loaded_nil

/-- Whatever parser is given, what comes of a directory does not depend on the order in which it
is listed. It can be populated from exactly if every file of it that defines something parses and
no two of them have the same stem, and then the defaults are what its files define. Otherwise the
error is that of the first file at fault, and what the parser said of it. -/
theorem populate_exact {parse : Parser} {files : FileTree} {directory : String}
    {entries : List (String × Node)}
    (hlist : files.list directory = .ok entries) (hnames : (entries.map Prod.fst).Nodup) :
    (∀ files' entries', files'.list directory = .ok entries' → entries.Perm entries' →
        populateBy parse files' (some directory) = populateBy parse files (some directory))
      ∧ ((∃ d, populateBy parse files (some directory) = .ok d)
        ↔ Loadable parse directory (IsFile entries))
      ∧ (∀ d, populateBy parse files (some directory) = .ok d → DefinedIn parse directory entries d)
      ∧ ∀ e, populateBy parse files (some directory) = .error e
        ↔ ∃ file, FirstFault parse directory entries file e := by
  have hspec := populate_spec parse hlist hnames
  refine ⟨fun files' entries' hlist' hperm => ?_, ?_, fun d hd => ?_, fun e => ?_⟩
  · -- the files are sorted before they are loaded, so both directories give one list
    rw [populate_eq hlist, populate_eq hlist', filesOf_perm hnames hperm]
  · cases hresult : populateBy parse files (some directory) with
    | ok d =>
      rw [hresult] at hspec
      exact iff_of_true ⟨d, rfl⟩ hspec.loadable_directory
    | error e =>
      rw [hresult] at hspec
      obtain ⟨file, hfirst⟩ := hspec
      refine iff_of_false nofun fun hloadable => ?_
      exact hloadable.not_fault hfirst.isFile (fun _ hother _ => hother) hfirst.fault
  · rw [hd] at hspec
    exact hspec.definedIn
  · cases hresult : populateBy parse files (some directory) with
    | ok d =>
      rw [hresult] at hspec
      refine iff_of_false nofun ?_
      rintro ⟨file, hfirst⟩
      exact hspec.loadable_directory.not_fault hfirst.isFile (fun _ hother _ => hother)
        hfirst.fault
    | error e' =>
      rw [hresult] at hspec
      obtain ⟨other, hother⟩ := hspec
      constructor
      · intro heq
        cases heq
        exact ⟨other, hother⟩
      · rintro ⟨file, hfirst⟩
        -- the error that is met is that of the first fault, and there is only one of these
        rw [hother.unique hnames hfirst]

/-! ### A crowded directory -/

/-- Two files define `a`, and another one does not parse. Notes define nothing, and a directory
is no file whatever its name is. -/
def crowdedEntries : List (String × Node) :=
  [("b.json", .file (Text.utf8 "\x7b nope")), ("a.toml", .file (Text.utf8 "priority = -400")),
    ("notes.md", .file (Text.utf8 "\x7b nope")), ("a.json", .file (Text.utf8 "[1, true]")),
    ("0.json", .directory)]

/-- A tree with one directory below its root. -/
def treeOf (directory : String) (entries : List (String × Node)) : FileTree :=
  ⟨([directory], .directory) :: entries.map fun (name, node) => ([directory, name], node), []⟩

/-- A text that parses has a value, in a form that can be computed. -/
theorem exists_of_isOk {result : Except String Json.Value} (h : result.isOk = true) :
    ∃ value, result = .ok value := by
  cases result with
  | error detail => cases h
  | ok value => exact ⟨value, rfl⟩

/-- The second file that defines `a` is the first one at fault. -/
theorem firstFault_crowded : FirstFault Format.parse "/defs" crowdedEntries
    ("a.toml", Text.utf8 "priority = -400") (.duplicate "a") := by
  obtain ⟨value, hjson⟩ : ∃ value, Format.parse .json "[1, true]" = .ok value :=
    exists_of_isOk (by decide +kernel)
  obtain ⟨value', htoml⟩ : ∃ value, Format.parse .toml "priority = -400" = .ok value :=
    exists_of_isOk (by decide +kernel)
  have hreads : Reads Format.parse "/defs" ("a.json", Text.utf8 "[1, true]") (.ok value) :=
    .parsed .json (by decide +kernel) (Text.ofUtf8?_utf8 _) hjson
  have hreads' : Reads Format.parse "/defs" ("a.toml", Text.utf8 "priority = -400") (.ok value') :=
    .parsed .toml (by decide +kernel) (Text.ofUtf8?_utf8 _) htoml
  -- both files parse, so the fault of the second one is that its name is taken
  refine ⟨by decide +kernel, ?_, fun other hother hlt e' => ?_⟩
  · have hearlier : IsFile crowdedEntries ("a.json", Text.utf8 "[1, true]") := by decide +kernel
    have hfault := Fault.repeated hreads' hearlier (by decide +kernel) (by decide)
      (by decide +kernel)
    have hstem : Path.stem "a.toml" = "a" := by decide +kernel
    rwa [hstem] at hfault
  · -- one file comes before it, and that one can be loaded by itself
    have hbefore : ∀ entry ∈ crowdedEntries, entry.1 < "a.toml" →
        entry = ("a.json", .file (Text.utf8 "[1, true]")) ∨ entry = ("0.json", .directory) := by
      decide +kernel
    have honly (f : String × List UInt8) (hf : IsFile crowdedEntries f) (hlt : f.1 < "a.toml") :
        f = ("a.json", Text.utf8 "[1, true]") := by
      obtain ⟨name, content⟩ := f
      rcases hbefore _ hf hlt with heq | heq <;> cases heq
      rfl
    have hloadable : Loadable Format.parse "/defs" (· = ("a.json", Text.utf8 "[1, true]")) :=
      ⟨fun f hf _ => hf ▸ ⟨value, hreads⟩, fun f g hf hg _ _ _ => hf.trans hg.symm⟩
    exact hloadable.not_fault (honly other hother hlt) fun f hf hlt' =>
      honly f hf (String.lt_trans hlt' hlt)

/-- The error is that the name is defined twice, in whatever order the directory is listed. -/
theorem populate_exact_crowded :
    (crowdedEntries.map Prod.fst).Nodup
      ∧ (treeOf "defs" crowdedEntries).list "/defs" = .ok crowdedEntries
      ∧ populate (treeOf "defs" crowdedEntries) (some "/defs") = .error (.duplicate "a")
      ∧ populate (treeOf "defs" crowdedEntries.reverse) (some "/defs")
        = .error (.duplicate "a") := by
  have hnames : (crowdedEntries.map Prod.fst).Nodup := by decide
  have hlist : (treeOf "defs" crowdedEntries).list "/defs" = .ok crowdedEntries := by
    decide +kernel
  have hlist' : (treeOf "defs" crowdedEntries.reverse).list "/defs"
      = .ok crowdedEntries.reverse := by decide +kernel
  obtain ⟨hperm, -, -, herror⟩ := populate_exact hlist hnames
  have hfirst := (herror _).mpr ⟨_, firstFault_crowded⟩
  exact ⟨hnames, hlist, hfirst,
    (hperm _ _ hlist' (List.reverse_perm _).symm).trans hfirst⟩

end Defaults

end Tenure
