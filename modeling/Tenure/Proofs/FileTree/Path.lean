import Tenure.FileTree.Path

/-!
# `Tenure.Proofs.FileTree.Path`: paths below a root

A plain name is a text that names one thing in a directory. Plain names that are
joined to a root, whatever the root looks like, end up behind the parts of the root;
the parent of such a path and the temporary file beside it are paths of the same
kind.

* `below_join` and `Below.join`: a plain name goes one level down.
* `below_ofParts`: the same parts, put together again, are the same path.
* `Below.parent` and `Below.temp`: the directory of a file, and the file that is
  written beside a JSON file.
* `withExtension_json`: the name of that file keeps all of the name before
  `.json`.
-/

set_option autoImplicit false

namespace Tenure.Path

/-- A text that names one thing in a directory. -/
structure IsPlain (name : String) : Prop where
  nonempty : name ≠ ""
  slash : '/' ∉ name.toList
  nul : '\x00' ∉ name.toList
  dot : name ≠ "."
  parent : name ≠ ".."

instance (name : String) : Decidable (IsPlain name) :=
  decidable_of_iff
    (name ≠ "" ∧ '/' ∉ name.toList ∧ '\x00' ∉ name.toList ∧ name ≠ "." ∧ name ≠ "..")
    ⟨fun ⟨nonempty, slash, nul, dot, parent⟩ => ⟨nonempty, slash, nul, dot, parent⟩,
      fun h => ⟨h.nonempty, h.slash, h.nul, h.dot, h.parent⟩⟩

/-! ### Pieces -/

/-- Splitting gives one piece at least, even of nothing. -/
theorem splitAt_ne_nil (sep : Char) (s : List Char) : splitAt sep s ≠ [] := by
  cases s with
  | nil => simp [splitAt]
  | cons c s =>
    simp only [splitAt]
    split
    · simp
    · split <;> simp

/-- A text without separators is one piece. -/
theorem splitAt_of_notMem {sep : Char} {s : List Char} (h : sep ∉ s) : splitAt sep s = [s] := by
  induction s with
  | nil => rfl
  | cons c s ih =>
    have hne : (c == sep) = false := by
      simpa using fun hcs => h (by rw [hcs]; exact List.mem_cons_self)
    simp [splitAt, hne, ih fun hmem => h (List.mem_cons_of_mem _ hmem)]

/-- A separator ends the pieces before it. -/
theorem splitAt_append (sep : Char) (s t : List Char) :
    splitAt sep (s ++ sep :: t) = splitAt sep s ++ splitAt sep t := by
  induction s with
  | nil => simp [splitAt]
  | cons c s ih =>
    simp only [List.cons_append, splitAt]
    split
    · rw [ih]
      rfl
    · obtain ⟨piece, pieces, hpieces⟩ := List.exists_cons_of_ne_nil (splitAt_ne_nil sep s)
      rw [ih, hpieces]
      rfl

/-- A piece is made of the split text's characters, and holds no separator. -/
theorem mem_of_mem_splitAt {sep : Char} {s piece : List Char} (h : piece ∈ splitAt sep s) {c : Char}
    (hc : c ∈ piece) : c ∈ s ∧ c ≠ sep := by
  induction s generalizing piece with
  | nil =>
    rw [List.mem_singleton.mp h] at hc
    cases hc
  | cons d s ih =>
    simp only [splitAt] at h
    split at h
    · rcases List.mem_cons.mp h with rfl | h
      · cases hc
      · obtain ⟨hmem, hne⟩ := ih h hc
        exact ⟨List.mem_cons_of_mem _ hmem, hne⟩
    · rename_i hne
      -- no separator: the character goes to the front of the first piece
      obtain ⟨first, others, hfirst⟩ := List.exists_cons_of_ne_nil (splitAt_ne_nil sep s)
      rw [hfirst] at h ih
      rcases List.mem_cons.mp h with rfl | h
      · rcases List.mem_cons.mp hc with rfl | hc
        · exact ⟨List.mem_cons_self, by simpa using hne⟩
        · obtain ⟨hmem, hne⟩ := ih List.mem_cons_self hc
          exact ⟨List.mem_cons_of_mem _ hmem, hne⟩
      · obtain ⟨hmem, hne⟩ := ih (List.mem_cons_of_mem _ h) hc
        exact ⟨List.mem_cons_of_mem _ hmem, hne⟩

/-- Every character that is no separator is in a piece. -/
theorem exists_mem_splitAt {sep : Char} {s : List Char} {c : Char} (h : c ∈ s) (hne : c ≠ sep) :
    ∃ piece ∈ splitAt sep s, c ∈ piece := by
  induction s with
  | nil => cases h
  | cons d s ih =>
    obtain ⟨first, others, hfirst⟩ := List.exists_cons_of_ne_nil (splitAt_ne_nil sep s)
    simp only [splitAt, hfirst] at ih ⊢
    rcases List.mem_cons.mp h with rfl | hmem
    · rw [if_neg (by simpa using hne)]
      exact ⟨c :: first, List.mem_cons_self, List.mem_cons_self⟩
    · obtain ⟨piece, hpiece, hc⟩ := ih hmem
      split
      · exact ⟨piece, List.mem_cons_of_mem _ hpiece, hc⟩
      · rcases List.mem_cons.mp hpiece with rfl | hother
        · exact ⟨d :: piece, List.mem_cons_self, List.mem_cons_of_mem _ hc⟩
        · exact ⟨piece, List.mem_cons_of_mem _ hother, hc⟩

/-- The pieces of two texts joined by a slash are those of the one and then the other. -/
theorem pieces_slash (s t : String) : pieces (s ++ "/" ++ t) = pieces s ++ pieces t := by
  have hchars : (s ++ "/" ++ t).toList = s.toList ++ '/' :: t.toList := by
    simp [String.toList_append]
  unfold pieces
  rw [hchars, splitAt_append, List.map_append]

/-- A plain name is one piece, itself. -/
theorem pieces_plain {name : String} (h : IsPlain name) : pieces name = [name] := by
  unfold pieces
  rw [splitAt_of_notMem h.slash]
  simp

/-- A plain name is neither empty nor a dot, so a walk takes it as a step. -/
theorem isPart_plain {name : String} (h : IsPlain name) : isPart name = true := by
  simp [isPart, h.nonempty, h.dot]

/-- What is left of a path that ends with a slash. -/
theorem exists_slash {s : String} (h : s.toList.getLast? = some '/') : ∃ r, s = r ++ "/" := by
  obtain ⟨chars, hchars⟩ := List.getLast?_eq_some_iff.mp h
  refine ⟨String.ofList chars, ?_⟩
  rw [← String.toList_inj, hchars]
  simp

/-- A plain name starts with no slash. -/
theorem isAbsolute_plain {name : String} (h : IsPlain name) : isAbsolute name = false := by
  unfold isAbsolute
  cases hchars : name.toList with
  | nil => rfl
  | cons c chars =>
    have hne : c ≠ '/' := fun hc => h.slash (by simp [hchars, hc])
    simpa using hne

/-- The start of a path decides whether it starts at the root. -/
theorem isAbsolute_append {s : String} (h : s ≠ "") (t : String) :
    isAbsolute (s ++ t) = isAbsolute s := by
  unfold isAbsolute
  cases hchars : s.toList with
  | nil => exact absurd (String.toList_eq_nil_iff.mp hchars) h
  | cons c chars => simp [String.toList_append, hchars]

/-- The pieces of a path that was joined: those of the root that count, and the
name. -/
theorem pieces_join (root : String) {name : String} (h : IsPlain name) :
    ∃ before, pieces (join root name) = before ++ [name] ∧ before.filter isPart = parts root := by
  unfold join
  rw [if_neg (by simp [isAbsolute_plain h])]
  split
  · rename_i hroot
    rcases Bool.or_eq_true _ _ ▸ hroot with hempty | hslash
    · obtain rfl := String.isEmpty_iff.mp hempty
      exact ⟨[], by rw [String.empty_append, pieces_plain h]; rfl, rfl⟩
    · obtain ⟨r, rfl⟩ := exists_slash (by simpa using hslash)
      have hr : pieces (r ++ "/") = pieces r ++ [""] := by
        have hslash := pieces_slash r ""
        rw [String.append_empty] at hslash
        exact hslash
      refine ⟨pieces r, by rw [pieces_slash, pieces_plain h], ?_⟩
      rw [parts, hr, List.filter_append]
      simp [isPart]
  · exact ⟨pieces root, by rw [pieces_slash, pieces_plain h], rfl⟩

/-- A plain name joined to a path leaves where the path starts from. -/
theorem isAbsolute_join (root : String) {name : String} (h : IsPlain name) :
    isAbsolute (join root name) = isAbsolute root := by
  unfold join
  rw [if_neg (by simp [isAbsolute_plain h])]
  by_cases hroot : root = ""
  · subst hroot
    rw [if_pos (by rfl), String.empty_append, isAbsolute_plain h]
    rfl
  · split
    · exact isAbsolute_append hroot name
    · rw [String.append_assoc]
      exact isAbsolute_append hroot _

/-- Joining brings no characters but the two texts' own and a slash. -/
theorem mem_join {root name : String} {c : Char} (h : c ∈ (join root name).toList) :
    c ∈ root.toList ∨ c = '/' ∨ c ∈ name.toList := by
  unfold join at h
  split at h
  · exact .inr (.inr h)
  · split at h
    · rw [String.toList_append, List.mem_append] at h
      exact h.imp_right .inr
    · simpa [String.toList_append, or_assoc] using h

/-- A path below another one starts with all of it. -/
theorem mem_join_left {root name : String} (h : IsPlain name) {c : Char} (hc : c ∈ root.toList) :
    c ∈ (join root name).toList := by
  unfold join
  rw [if_neg (by simp [isAbsolute_plain h])]
  split <;> simp [String.toList_append, hc]

/-! ### Paths below a root -/

/-- A path that leads from a root down to some names, the last of which may be a
file. -/
structure Below (root : String) (names : List String) (path : String) : Prop where
  absolute : isAbsolute path = isAbsolute root
  parts : Path.parts path = Path.parts root ++ names
  clean : '\x00' ∉ path.toList
  file : namesDirectory path = false

/-- Joining a plain name to a root leads one step below it. -/
theorem below_join {root name : String} (hroot : '\x00' ∉ root.toList) (h : IsPlain name) :
    Below root [name] (join root name) := by
  obtain ⟨before, hpieces, hbefore⟩ := pieces_join root h
  refine ⟨isAbsolute_join root h, ?_, fun hnul => ?_, ?_⟩
  · rw [Path.parts, hpieces, List.filter_append, hbefore]
    simp [isPart_plain h]
  · rcases mem_join hnul with hmem | hslash | hmem
    · exact hroot hmem
    · cases hslash
    · exact h.nul hmem
  · rw [namesDirectory, hpieces]
    simp [isPart_plain h]

/-- Joining a plain name to a path below a root leads one step further down. -/
theorem Below.join {root path name : String} {names : List String} (hpath : Below root names path)
    (h : IsPlain name) : Below root (names ++ [name]) (join path name) := by
  have hjoin := below_join hpath.clean h
  refine ⟨hjoin.absolute.trans hpath.absolute, ?_, hjoin.clean, hjoin.file⟩
  rw [hjoin.parts, hpath.parts, List.append_assoc]

/-- A path has a name for a file only if it is not empty. -/
theorem Below.isEmpty {root path : String} {names : List String} (h : Below root names path) :
    path.isEmpty = false := by
  cases hempty : path.isEmpty with
  | false => rfl
  | true =>
    have hfile := h.file
    rw [String.isEmpty_iff.mp hempty] at hfile
    cases hfile

/-- The parts of a path hold no slash, and nothing that the path does not hold. -/
theorem mem_of_mem_parts {path part : String} (h : part ∈ parts path) :
    isPart part = true ∧ ∀ c ∈ part.toList, c ∈ path.toList ∧ c ≠ '/' := by
  obtain ⟨hmem, hpart⟩ := List.mem_filter.mp h
  obtain ⟨piece, hpiece, rfl⟩ := List.mem_map.mp hmem
  refine ⟨hpart, fun c hc => ?_⟩
  rw [String.toList_ofList] at hc
  exact mem_of_mem_splitAt hpiece hc

/-- Pieces that are put together with separators are split again. -/
theorem splitAt_intercalate {sep : Char} {pieces : List (List Char)} (hne : pieces ≠ [])
    (h : ∀ piece ∈ pieces, sep ∉ piece) : splitAt sep ([sep].intercalate pieces) = pieces := by
  induction pieces with
  | nil => exact absurd rfl hne
  | cons piece pieces ih =>
    have hpiece := splitAt_of_notMem (h piece List.mem_cons_self)
    cases pieces with
    | nil => simpa [List.intercalate] using hpiece
    | cons next pieces =>
      rw [List.intercalate_cons_cons, List.append_assoc, List.singleton_append, splitAt_append,
        hpiece, ih (List.cons_ne_nil _ _) fun other hmem => h other (List.mem_cons_of_mem _ hmem)]
      rfl

/-- Parts that are put together to a path are its last pieces. -/
theorem pieces_ofParts (absolute : Bool) {ps : List String} (hne : ps ≠ [])
    (h : ∀ p ∈ ps, '/' ∉ p.toList) :
    pieces (ofParts absolute ps) = (if absolute then [""] else []) ++ ps := by
  have hback : (ps.map String.toList).map String.ofList = ps := by
    rw [List.map_map]
    exact (List.map_congr_left fun p _ => String.ofList_toList).trans (List.map_id ps)
  have hjoined : pieces ("/".intercalate ps) = ps := by
    unfold pieces
    rw [String.toList_intercalate]
    show (splitAt '/' (['/'].intercalate (ps.map String.toList))).map String.ofList = ps
    rw [splitAt_intercalate (by simpa using hne) (by simpa using h), hback]
  cases absolute with
  | false => simpa [ofParts] using hjoined
  | true =>
    have hslash := pieces_slash "" ("/".intercalate ps)
    rw [String.empty_append] at hslash
    simp only [ofParts, if_true]
    rw [hslash, hjoined]
    rfl

/-- A path that was put together holds the characters of its parts, and slashes. -/
theorem exists_mem_ofParts {absolute : Bool} {ps : List String} (hne : ps ≠ [])
    (h : ∀ p ∈ ps, '/' ∉ p.toList) {c : Char} (hc : c ∈ (ofParts absolute ps).toList)
    (hslash : c ≠ '/') : ∃ p ∈ ps, c ∈ p.toList := by
  obtain ⟨piece, hpiece, hmem⟩ := exists_mem_splitAt hc hslash
  have hin : String.ofList piece ∈ pieces (ofParts absolute ps) := List.mem_map_of_mem hpiece
  rw [← String.toList_ofList (l := piece)] at hmem
  rw [pieces_ofParts absolute hne h, List.mem_append] at hin
  rcases hin with hin | hin
  · split at hin
    · rw [List.mem_singleton.mp hin] at hmem
      cases hmem
    · cases hin
  · exact ⟨_, hin, hmem⟩

/-- A path put together from parts starts where it is said to start. -/
theorem isAbsolute_ofParts (absolute : Bool) {ps : List String} (hne : ps ≠ [])
    (h : ∀ p ∈ ps, p ≠ "" ∧ '/' ∉ p.toList) : isAbsolute (ofParts absolute ps) = absolute := by
  cases absolute with
  | true => exact isAbsolute_append (s := "/") (by decide) _
  | false =>
    obtain ⟨p, others, rfl⟩ := List.exists_cons_of_ne_nil hne
    obtain ⟨hnonempty, hslash⟩ := h p List.mem_cons_self
    have hrelative : isAbsolute p = false := by
      cases hp : isAbsolute p with
      | false => rfl
      | true => exact absurd (List.mem_of_head? (by simpa [isAbsolute] using hp)) hslash
    show isAbsolute ("" ++ "/".intercalate (p :: others)) = false
    rw [String.empty_append]
    cases others with
    | nil => simpa using hrelative
    | cons next others =>
      rw [String.intercalate_cons_cons, String.append_assoc, isAbsolute_append hnonempty]
      exact hrelative

/-- The parts of a root and parts below it, put together again. -/
theorem below_ofParts_of {root : String} {names : List String} (hroot : '\x00' ∉ root.toList)
    (hne : names ≠ [])
    (h : ∀ name ∈ names, isPart name = true ∧ '/' ∉ name.toList ∧ '\x00' ∉ name.toList) :
    Below root names (ofParts (isAbsolute root) (Path.parts root ++ names)) := by
  -- the parts of the root are as good as the names that follow them
  have hparts : ∀ p ∈ Path.parts root ++ names,
      isPart p = true ∧ '/' ∉ p.toList ∧ '\x00' ∉ p.toList := by
    intro p hp
    rcases List.mem_append.mp hp with hp | hp
    · obtain ⟨hpart, hchars⟩ := mem_of_mem_parts hp
      exact ⟨hpart, fun hc => (hchars _ hc).2 rfl, fun hc => hroot (hchars _ hc).1⟩
    · exact h p hp
  have hps : Path.parts root ++ names ≠ [] := by simp [hne]
  have hpieces := pieces_ofParts (isAbsolute root) hps fun p hp => (hparts p hp).2.1
  refine ⟨isAbsolute_ofParts _ hps fun p hp => ⟨fun hempty => ?_, (hparts p hp).2.1⟩, ?_, ?_, ?_⟩
  · have hpart := (hparts p hp).1
    rw [hempty] at hpart
    cases hpart
  · have hall : (Path.parts root ++ names).filter isPart = Path.parts root ++ names :=
      List.filter_eq_self.mpr fun p hp => (hparts p hp).1
    rw [Path.parts, hpieces, List.filter_append, hall]
    split <;> rfl
  · intro hnul
    obtain ⟨p, hp, hmem⟩ := exists_mem_ofParts hps (fun p hp => (hparts p hp).2.1) hnul (by decide)
    exact (hparts p hp).2.2 hmem
  · obtain ⟨last, hlast⟩ : ∃ last, names.getLast? = some last :=
      ⟨_, List.getLast?_eq_some_getLast hne⟩
    have hmem := List.mem_of_getLast? hlast
    rw [namesDirectory, hpieces, ← List.append_assoc, List.getLast?_append, hlast]
    simp [(h last hmem).1]

/-- The parts of a root and names below it, put together again. -/
theorem below_ofParts {root : String} {names : List String} (hroot : '\x00' ∉ root.toList)
    (hne : names ≠ []) (h : ∀ name ∈ names, IsPlain name) :
    Below root names (ofParts (isAbsolute root) (Path.parts root ++ names)) :=
  below_ofParts_of hroot hne fun name hname =>
    ⟨isPart_plain (h name hname), (h name hname).slash, (h name hname).nul⟩

/-- The directory of a file below a root. -/
theorem Below.parent {root path name : String} {names : List String}
    (hpath : Below root (names ++ [name]) path) (hroot : '\x00' ∉ root.toList) (hne : names ≠ [])
    (h : ∀ name ∈ names, IsPlain name) : Below root names (parent path) := by
  have hparent : Path.parent path = ofParts (isAbsolute root) (Path.parts root ++ names) := by
    rw [Path.parent, hpath.absolute, hpath.parts, ← List.append_assoc, List.dropLast_concat]
  rw [hparent]
  exact below_ofParts hroot hne h

/-! ### Temporary files -/

/-- A name splits at its last dot, when something stands before it. -/
theorem splitExtension_dot {before after : List Char} (hbefore : before ≠ [])
    (hafter : '.' ∉ after) :
    splitExtension (before ++ '.' :: after) = (before, some after) := by
  have hplain : ∀ c ∈ after.reverse, (c != '.') = true := by
    intro c hc
    have hne : c ≠ '.' := fun heq => hafter (heq ▸ List.mem_reverse.mp hc)
    simpa using hne
  -- read from the end, the name up to its last dot is what stands behind it
  have htake : ((before ++ '.' :: after).reverse.takeWhile (· != '.')).reverse = after := by
    rw [List.reverse_append, List.reverse_cons, List.append_assoc,
      List.takeWhile_append_of_pos hplain]
    simp
  have hdrop : ((before ++ '.' :: after).reverse.dropWhile (· != '.')).reverse.dropLast
      = before := by
    rw [List.reverse_append, List.reverse_cons, List.append_assoc,
      List.dropWhile_append_of_pos hplain]
    simp
  unfold splitExtension
  simp only [htake, hdrop]
  rw [if_neg]
  simp only [Bool.or_eq_true, decide_eq_true_eq, List.length_append, List.length_cons,
    List.isEmpty_iff, hbefore, or_false]
  omega

/-- The temporary file beside a JSON file keeps all of its name before `.json`. -/
theorem withExtension_json {name : String} (hempty : name ≠ "") (hdot : name ≠ ".") :
    withExtension (name ++ ".json") "json.tmp" = name ++ ".json.tmp" := by
  have hbefore : name.toList ≠ [] := by simpa using hempty
  have hname : (name ++ ".json").toList = name.toList ++ '.' :: ['j', 's', 'o', 'n'] := by
    simp [String.toList_append]
  have hkept : (name.toList ++ '.' :: ['j', 's', 'o', 'n']).take
      ((name.toList ++ '.' :: ['j', 's', 'o', 'n']).length - ['j', 's', 'o', 'n'].length)
        = name.toList ++ ['.'] := by
    have hlength : (name.toList ++ '.' :: ['j', 's', 'o', 'n']).length - ['j', 's', 'o', 'n'].length
        = (name.toList ++ ['.']).length := by
      simp
    rw [hlength, show name.toList ++ '.' :: ['j', 's', 'o', 'n']
      = (name.toList ++ ['.']) ++ ['j', 's', 'o', 'n'] by simp, List.take_left]
  -- without its dot the rest is no parent directory, so there is something before the extension
  have hparent : (name.toList ++ ['.'] == ['.', '.']) = false := by
    have hne : name.toList ≠ ['.'] := fun h => hdot (String.toList_inj.mp h)
    simpa using fun h => hne (List.append_cancel_right h)
  unfold withExtension
  rw [hname, splitExtension_dot hbefore (by decide)]
  simp only
  rw [hkept, if_neg (by simp [hparent]), splitExtension_dot hbefore (by simp)]
  rw [String.ofList_toList, String.append_assoc]
  rfl

/-- A plain name stays plain under a suffix without slashes that is too long to make it a dot or
two. -/
theorem plain_append {name suffix : String} (h : IsPlain name) (hsuffix : '/' ∉ suffix.toList)
    (hnul : '\x00' ∉ suffix.toList) (hlong : 2 < suffix.length) : IsPlain (name ++ suffix) := by
  have hlength : 2 < (name ++ suffix).length := by
    rw [String.length_append]
    omega
  refine ⟨fun heq => ?_, ?_, ?_, fun heq => ?_, fun heq => ?_⟩
  · rw [heq] at hlength
    exact absurd hlength (by decide)
  · simpa [String.toList_append] using ⟨h.slash, hsuffix⟩
  · simpa [String.toList_append] using ⟨h.nul, hnul⟩
  all_goals
    rw [heq] at hlength
    exact absurd hlength (by decide)

/-- The temporary file beside a JSON file below a root. -/
theorem Below.temp {root path name : String} {names : List String}
    (hpath : Below root (names ++ [name ++ ".json"]) path) (hroot : '\x00' ∉ root.toList)
    (hnames : ∀ name ∈ names, IsPlain name) (hname : IsPlain name) :
    Below root (names ++ [name ++ ".json.tmp"]) (temp path) := by
  have htemp : Path.temp path
      = ofParts (isAbsolute root) (Path.parts root ++ (names ++ [name ++ ".json.tmp"])) := by
    rw [Path.temp, hpath.absolute, hpath.parts, ← List.append_assoc, tempFor, List.getLast?_concat]
    simp only [List.dropLast_concat]
    rw [withExtension_json hname.nonempty hname.dot, List.append_assoc]
  rw [htemp]
  refine below_ofParts hroot (by simp) fun other hother => ?_
  rcases List.mem_append.mp hother with hother | hother
  · exact hnames other hother
  · rw [List.mem_singleton.mp hother]
    exact plain_append hname (by decide) (by decide) (by decide)

end Tenure.Path
