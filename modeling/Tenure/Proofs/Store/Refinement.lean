import Tenure.Proofs.Store.Directory

/-!
# `Tenure.Proofs.Store.Refinement`: files answer like memory

Calls on stores that share one directory are answered one after another. `Mirrors`
relates the tree to a store in memory: the file of every plain key holds the record
that memory has for it, and is not there when memory has none. Each call keeps the
two alike, so stores that start from an empty directory answer every sequence of
calls as a store in memory does.

* `answer_mirrors`: one call.
* `run_mirrors`: a sequence of calls.
* `run_as_memory`: a sequence of calls on an empty directory.
* `run_unhindered`: the file system fails no call when nothing is in the way.
* `Memory.run_version_le`: versions count the writes, so they fit into 64 bits for
  every sequence of fewer than `2 ^ 64` calls.
-/

set_option autoImplicit false

namespace Tenure.Store

open FileTree

/-- A call through a store in a directory. -/
structure Asked where
  handle : Directory
  key : Key
  request : Request
deriving Repr, DecidableEq, Inhabited

/-- What a store in memory becomes and replies, call by call. -/
def Memory.run (m : Memory) : List Asked → List (Memory × Reply)
  | [] => []
  | a :: rest => m.answer a.key a.request :: Memory.run (m.answer a.key a.request).1 rest

/-- A call raises the version by one at most, and replies the version that it has
written. -/
theorem Decided.version_le {key : Key} {before after : Option (Versioned Record)}
    {request : Request} {reply : Reply} (h : Decided key before request after reply) :
    versionOf after ≤ versionOf before + 1
      ∧ ∀ version, reply = .written version → version = versionOf after := by
  cases h with
  | read | taken _ | moved _ _ | missing _ => exact ⟨Nat.le_succ _, by simp⟩
  | created habsent => exact ⟨by simp [versionOf, Versioned.initial], by simp [versionOf, eq_comm]⟩
  | updated hcurrent hversion =>
    subst hversion
    exact ⟨by simp [versionOf, hcurrent], by simp [versionOf, eq_comm]⟩

/-- A store in memory writes no version above the number of its calls. -/
theorem Memory.run_version_le {calls : List Asked} {m : Memory} {n : Nat}
    (hm : ∀ key, versionOf (m.get key) ≤ n) :
    ∀ s ∈ m.run calls, ∀ version, s.2 = .written version → version ≤ n + calls.length := by
  -- on the calls: each of them adds one at most to the greatest version
  induction calls generalizing m n with
  | nil =>
    intro s hs
    cases hs
  | cons a rest ih =>
    obtain ⟨hle, hwritten⟩ := (m.answer_decided a.key a.request).version_le
    have hkey := hm a.key
    have hnext : ∀ key, versionOf ((m.answer a.key a.request).1.get key) ≤ n + 1 := by
      intro key
      by_cases heq : key = a.key
      · rw [heq]
        omega
      · rw [m.answer_get_other a.key key a.request heq]
        exact Nat.le_succ_of_le (hm key)
    intro s hs version hversion
    rw [List.length_cons]
    rcases List.mem_cons.mp hs with rfl | hs
    · have hstored := hwritten version hversion
      omega
    · have hrest := ih hnext s hs version hversion
      omega

namespace Directory

/-- What a tree becomes and what is replied, call by call. -/
def run (t : FileTree) : List Asked → List (FileTree × Reply)
  | [] => []
  | a :: rest =>
    a.handle.answer t a.key a.request :: run (a.handle.answer t a.key a.request).1 rest

/-- The file system has failed no call. -/
def IsUnhindered (answers : List (FileTree × Reply)) : Prop :=
  ∀ answer ∈ answers, ∀ e, answer.2 ≠ .failed (.io e)

/-- The names of the directory and of the files of a key are not too long. -/
structure Fits (key : Key) : Prop where
  space : key.space.utf8ByteSize ≤ nameLimit
  name : (key.name ++ ".json.tmp").utf8ByteSize ≤ nameLimit

/-- The record files of a directory hold what memory has for all plain keys. -/
def Mirrors (top : List String) (t : FileTree) (m : Memory) : Prop :=
  ∀ key : Key, key.IsPlain → contentAt t (recordPlace top key) = .ok (m.get key)

section

variable {top : List String} {t : FileTree} {m : Memory}

/-- An empty directory holds what an empty memory has. -/
theorem mirrors_empty (hempty : ∀ below, below ≠ [] → t.find (top ++ below) = none) :
    Mirrors top t .empty := by
  intro key _
  have habsent : t.find (recordPlace top key) = none := hempty _ (by simp)
  simp only [contentAt, habsent]
  rfl

/-- What was written into a record file is stored there. -/
theorem contentAt_fileBytes {place : List String} {stored : Versioned Record}
    (hfind : t.find place = some (.file stored.fileBytes))
    (hfits : stored.version < UInt64.size) : contentAt t place = .ok (some stored) := by
  simp only [contentAt, hfind, Versioned.parse?_fileBytes hfits]

/-- One call keeps the directory and the memory alike, and both reply the same. -/
theorem answer_mirrors {d : Directory} {key : Key} {request : Request}
    (hroot : IsRoot t d.root top) (hkey : key.IsPlain) (hmirrors : Mirrors top t m)
    (hfiles : ∀ e, (d.answer t key request).2 ≠ .failed (.io e))
    (hversion : ∀ version, (m.answer key request).2 = .written version → version < UInt64.size) :
    (d.answer t key request).2 = (m.answer key request).2
      ∧ Mirrors top (d.answer t key request).1 (m.answer key request).1 := by
  have hanswered := answer_answered hroot hkey request
  have hmemory := m.answer_decided key request
  generalize d.answer t key request = answer at hfiles hanswered ⊢
  obtain ⟨t', reply⟩ := answer
  simp only at hfiles hanswered ⊢
  -- the record of the key itself decides; those of the others stay
  suffices h : reply = (m.answer key request).2
      ∧ contentAt t' (recordPlace top key) = .ok ((m.answer key request).1.get key) by
    refine ⟨h.1, fun other hother => ?_⟩
    by_cases heq : other = key
    · rw [heq]
      exact h.2
    · rw [hanswered.content_other heq, m.answer_get_other key other request heq]
      exact hmirrors other hother
  cases hanswered with
  | refused e hchange hwhy => exact absurd rfl (hfiles e)
  | corrupt hchange hcontent =>
    rw [hmirrors key hkey] at hcontent
    cases hcontent
  | kept hchange hcontent hdecided =>
    obtain rfl := Except.ok.inj ((hmirrors key hkey).symm.trans hcontent)
    obtain ⟨hafter, hreply⟩ := hdecided.unique hmemory
    refine ⟨hreply, ?_⟩
    rw [← hafter, ← hmirrors key hkey]
    unfold contentAt
    rw [hchange.others (recordPlace top key) (filePlace_notMem _) recordPlace_notMem]
  | written hchange hcontent hdecided hfind =>
    obtain rfl := Except.ok.inj ((hmirrors key hkey).symm.trans hcontent)
    obtain ⟨hafter, hreply⟩ := hdecided.unique hmemory
    refine ⟨hreply, ?_⟩
    rw [← hafter]
    exact contentAt_fileBytes hfind (hversion _ hreply.symm)

/-- A sequence of calls keeps the directory and the memory alike. -/
theorem run_mirrors {calls : List Asked} (hroots : ∀ a ∈ calls, IsRoot t a.handle.root top)
    (hkeys : ∀ a ∈ calls, a.key.IsPlain) (hmirrors : Mirrors top t m)
    (hfiles : IsUnhindered (run t calls))
    (hversions : ∀ s ∈ m.run calls, ∀ version, s.2 = .written version → version < UInt64.size) :
    (run t calls).map Prod.snd = (m.run calls).map Prod.snd
      ∧ ∀ p ∈ (run t calls).zip (m.run calls), Mirrors top p.1.1 p.2.1 := by
  -- on the calls: after each of them the directory still mirrors memory, so the rest runs alike
  induction calls generalizing t m with
  | nil =>
    refine ⟨rfl, fun p hp => ?_⟩
    cases hp
  | cons a rest ih =>
    have hroot := hroots a List.mem_cons_self
    have hkey := hkeys a List.mem_cons_self
    obtain ⟨hreply, hmirrors'⟩ := answer_mirrors hroot hkey hmirrors
      (hfiles _ List.mem_cons_self) (hversions _ List.mem_cons_self)
    have hchange := (answer_answered hroot hkey a.request).changesOnly
    obtain ⟨hreplies, hall⟩ := ih
      (fun b hb => (hroots b (List.mem_cons_of_mem _ hb)).keeps hchange)
      (fun b hb => hkeys b (List.mem_cons_of_mem _ hb)) hmirrors'
      (fun s hs => hfiles s (List.mem_cons_of_mem _ hs))
      (fun s hs => hversions s (List.mem_cons_of_mem _ hs))
    refine ⟨?_, fun p hp => ?_⟩
    · simp only [run, Memory.run, List.map_cons, hreply, hreplies]
    · rcases List.mem_cons.mp hp with rfl | hp
      · exact hmirrors'
      · exact hall p hp

/-- An empty directory has room for every key whose names are not too long. -/
theorem unobstructed_empty (hempty : ∀ below, below ≠ [] → t.find (top ++ below) = none)
    {key : Key} (hfits : Fits key) : Unobstructed top key t where
  space := hfits.space
  name := hfits.name
  directory bytes := by simp [spacePlace, hempty]
  lock := by simp [lockPlace, filePlace, hempty]
  temp := by simp [tempPlace, filePlace, hempty]
  record := by simp [recordPlace, filePlace, hempty]

/-- Where there is room for the keys of all calls, the file system fails none. -/
theorem run_unhindered {calls : List Asked} (hroots : ∀ a ∈ calls, IsRoot t a.handle.root top)
    (hkeys : ∀ a ∈ calls, a.key.IsPlain) (hfree : ∀ a ∈ calls, Unobstructed top a.key t) :
    IsUnhindered (run t calls) := by
  induction calls generalizing t with
  | nil =>
    intro s hs
    cases hs
  | cons a rest ih =>
    have hanswered := answer_answered (hroots a List.mem_cons_self) (hkeys a List.mem_cons_self)
      a.request
    intro s hs
    rcases List.mem_cons.mp hs with rfl | hs
    · exact hanswered.ne_io (hfree a List.mem_cons_self)
    · exact ih (fun b hb => (hroots b (List.mem_cons_of_mem _ hb)).keeps hanswered.changesOnly)
        (fun b hb => hkeys b (List.mem_cons_of_mem _ hb))
        (fun b hb => hanswered.unobstructed (hfree b (List.mem_cons_of_mem _ hb))) s hs

/-- Stores that share an empty directory answer every sequence of calls as a store in
memory does, and after each call the directory holds what the memory holds, unless
the file system fails; and it fails no call when all names fit. Versions are words of
64 bits, and nobody has counted beyond the last one. -/
theorem run_as_memory {calls : List Asked}
    (hempty : ∀ below, below ≠ [] → t.find (top ++ below) = none)
    (hroots : ∀ a ∈ calls, IsRoot t a.handle.root top) (hkeys : ∀ a ∈ calls, a.key.IsPlain)
    (hversions : ∀ s ∈ Memory.empty.run calls, ∀ version,
      s.2 = .written version → version < UInt64.size) :
    ((∀ a ∈ calls, Fits a.key) → IsUnhindered (run t calls))
      ∧ (IsUnhindered (run t calls) →
        (run t calls).map Prod.snd = (Memory.empty.run calls).map Prod.snd
          ∧ ∀ p ∈ (run t calls).zip (Memory.empty.run calls), Mirrors top p.1.1 p.2.1) := by
  refine ⟨fun hfits => ?_, fun hfiles => ?_⟩
  · exact run_unhindered hroots hkeys fun a ha => unobstructed_empty hempty (hfits a ha)
  · exact run_mirrors hroots hkeys (mirrors_empty hempty) hfiles hversions

end

/-- Two stores in one directory, under different texts: the second one finds what the
first has created and updates it, and then the first one is late. -/
theorem run_as_memory_two_handles :
    let t : FileTree := ⟨[(["locks"], .directory)], []⟩
    let key : Key := ⟨"ns", "lock"⟩
    let first : Record := ⟨"pod \"a\"", 15000, 10, 20, 0⟩
    let second : Record := ⟨"pod\tb", 15000, 30, 30, 1⟩
    let calls : List Asked := [
      ⟨⟨"/locks"⟩, key, .create first⟩,
      ⟨⟨"/./locks/"⟩, key, .get⟩,
      ⟨⟨"/./locks/"⟩, key, .update second 1⟩,
      ⟨⟨"/locks"⟩, key, .update first 1⟩]
    (run t calls).map Prod.snd
      = [.written 1, .found (some ⟨1, first⟩), .written 2, .failed (.conflict key)] := by
  intro t key first second calls
  have hempty : ∀ below, below ≠ [] → t.find (["locks"] ++ below) = none := by
    intro below hbelow
    simp [t, find, hbelow]
  -- both handles name the same directory, by different paths
  have hroot : ∀ root, '\x00' ∉ root.toList → Path.isAbsolute root = true →
      Path.parts root = ["locks"] → IsRoot t root ["locks"] := by
    intro root hclean habsolute hparts
    refine ⟨hclean, ?_, rfl⟩
    rw [habsolute, hparts]
    rfl
  have hroots : ∀ a ∈ calls, IsRoot t a.handle.root ["locks"] := by
    intro a ha
    simp only [calls, List.mem_cons, List.not_mem_nil, or_false] at ha
    rcases ha with rfl | rfl | rfl | rfl <;> exact hroot _ (by decide) (by decide) (by decide)
  have hkeys : ∀ a ∈ calls, a.key = key := by
    intro a ha
    simp only [calls, List.mem_cons, List.not_mem_nil, or_false] at ha
    rcases ha with rfl | rfl | rfl | rfl <;> rfl
  have hplain : ∀ a ∈ calls, a.key.IsPlain := fun a ha => by rw [hkeys a ha]; decide
  have hfits : ∀ a ∈ calls, Fits a.key := fun a ha => by
    rw [hkeys a ha]
    exact ⟨by decide, by decide⟩
  -- four calls do not run out of versions
  have hversions : ∀ s ∈ Memory.empty.run calls, ∀ version,
      s.2 = .written version → version < UInt64.size := by
    intro s hs version hversion
    have hstart : ∀ key, versionOf (Memory.empty.get key) ≤ 0 := fun _ => Nat.le_refl 0
    have hle := Memory.run_version_le hstart s hs version hversion
    exact Nat.lt_of_le_of_lt hle (by decide)
  obtain ⟨hunhindered, hsame⟩ := run_as_memory hempty hroots hplain hversions
  rw [(hsame (hunhindered hfits)).1]
  rfl

end Directory

end Tenure.Store
