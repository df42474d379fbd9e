import Tenure.Proofs.Store.Decided

/-!
# `Tenure.Proofs.Store.Unstamped`: a store does not read the times

A record carries two times that whoever writes it has read off a wall clock. Every
type that can hold a record gets a function `unstamped` that sets these times to
zero. A store in memory compares versions only, so unstamping commutes with every
call: whether the times are left out before the call or after it, the store and the
reply are the same.

* `Shared.answer_unstamped`: a call to the store.
* `Link.deliver_unstamped`: a call through a link, which may fail it or let someone
  else write first.

## What a client may rely on

A write puts a record of a higher version in place, so a store in memory forgets
nothing: what was once there is there, or was there before what is there now
(`Shared.Grows`). `Told` collects what a client may rely on when its call has been
answered, and `Link.told_deliver` says that it may do so at the end of every link.
-/

set_option autoImplicit false

namespace Tenure

/-! ### Without the times -/

/-- A record without its times. -/
def Record.unstamped (r : Record) : Record := { r with acquireTime := 0, renewTime := 0 }

/-- A record without its times, under the version that it has. -/
def Versioned.unstamped (v : Versioned Record) : Versioned Record := ⟨v.version, v.value.unstamped⟩

namespace Store

def Request.unstamped : Request → Request
  | get => get
  | create record => create record.unstamped
  | update record expected => update record.unstamped expected

def Reply.unstamped : Reply → Reply
  | found current => found (current.map Versioned.unstamped)
  | written version => written version
  | failed error => failed error

def Memory.unstamped (m : Memory) : Memory := ⟨m.records.map fun (key, v) => (key, v.unstamped)⟩

/-- A store without the times of the records that it has in memory. -/
def Shared.unstamped (s : Shared) : Shared :=
  match s.backing with
  | .memory records => ⟨.memory records.unstamped, s.files⟩
  | .directory _ => s

def Harm.unstamped : Harm → Harm
  | fails error => fails error
  | overtaken record => overtaken record.unstamped

def Fault.unstamped (f : Fault) : Fault := ⟨f.call, f.harm.unstamped⟩

def Link.unstamped (l : Link) : Link := { l with faults := l.faults.map Fault.unstamped }

/-! ### The store does not read the times -/

/-- A call stays of its kind without the times. -/
@[simp] theorem Request.call_unstamped (request : Request) :
    request.unstamped.call = request.call := by
  cases request <;> rfl

/-- What memory holds under a key without the times is what it holds, without them. -/
theorem Memory.get_unstamped (m : Memory) (key : Key) :
    m.unstamped.get key = (m.get key).map Versioned.unstamped := by
  simp only [get, unstamped, List.find?_map, Option.map_map]
  rfl

/-- Memory answers calls alike with and without the times of its records. -/
theorem Memory.answer_unstamped (m : Memory) (key : Key) (request : Request) :
    m.unstamped.answer key request.unstamped
      = ((m.answer key request).1.unstamped, (m.answer key request).2.unstamped) := by
  cases request with
  | get =>
    show (m.unstamped, Reply.found (m.unstamped.get key)) = _
    rw [m.get_unstamped]
    rfl
  | create record =>
    simp only [answer, Request.unstamped, m.get_unstamped]
    cases m.get key <;> rfl
  | update record expected =>
    simp only [answer, Request.unstamped, m.get_unstamped]
    cases m.get key with
    | none => rfl
    | some current =>
      show (if current.version = expected then _ else _) = _
      -- the versions are compared, and those have no times to lose
      by_cases hversion : current.version = expected
      · simp only [if_pos hversion]
        rfl
      · simp only [if_neg hversion]
        rfl

/-- A shared store in memory answers calls alike with and without the times of its records. -/
theorem Shared.answer_unstamped {s : Shared} (h : s.IsMemory) (key : Key) (request : Request) :
    s.unstamped.answer key request.unstamped
      = ((s.answer key request).1.unstamped, (s.answer key request).2.unstamped) := by
  obtain ⟨backing, files⟩ := s
  obtain ⟨records, rfl⟩ : ∃ records, backing = .memory records := h
  have hanswer := records.answer_unstamped key request
  show ((⟨.memory (records.unstamped.answer key request.unstamped).1, files⟩ : Shared),
    (records.unstamped.answer key request.unstamped).2) = _
  rw [hanswer]
  rfl

/-- A store in memory stays there over a call. -/
theorem Shared.isMemory_answer {s : Shared} (h : s.IsMemory) (key : Key) (request : Request) :
    (s.answer key request).1.IsMemory :=
  (s.answer_served h key request).1

/-- A store in memory stays there without the times. -/
theorem Shared.isMemory_unstamped {s : Shared} (h : s.IsMemory) : s.unstamped.IsMemory := by
  obtain ⟨backing, files⟩ := s
  obtain ⟨records, rfl⟩ : ∃ records, backing = .memory records := h
  exact ⟨_, rfl⟩

/-- The record of a key without its times is the one that a store without times has. -/
theorem Shared.record?_unstamped {s : Shared} (h : s.IsMemory) (key : Key) :
    s.unstamped.record? key = (s.record? key).map Versioned.unstamped := by
  obtain ⟨backing, files⟩ := s
  obtain ⟨records, rfl⟩ : ∃ records, backing = .memory records := h
  exact records.get_unstamped key

/-- The call by which someone else writes a record over what is there. -/
def overwriting (current : Option (Versioned Record)) (record : Record) : Request :=
  match current with
  | none => .create record
  | some current => .update record current.version

/-- Others write alike over records with and without times. -/
theorem overwriting_unstamped (current : Option (Versioned Record)) (record : Record) :
    overwriting (current.map Versioned.unstamped) record.unstamped
      = (overwriting current record).unstamped := by
  cases current <;> rfl

/-- Writing over a record is a call like any other: a creation or an update of what is there. -/
theorem Shared.overwrite_eq {s : Shared} (h : s.IsMemory) (key : Key) (record : Record) :
    s.overwrite key record = s.answer key (overwriting (s.record? key) record) := by
  obtain ⟨backing, files⟩ := s
  obtain ⟨records, rfl⟩ : ∃ records, backing = .memory records := h
  have hget : (⟨.memory records, files⟩ : Shared).answer key .get
      = (⟨.memory records, files⟩, .found (records.get key)) := rfl
  have hrecord : (⟨.memory records, files⟩ : Shared).record? key = records.get key := rfl
  unfold overwrite
  rw [hget, hrecord]
  cases records.get key <;> rfl

/-- A store in memory stays there when somebody else writes. -/
theorem Shared.isMemory_overwrite {s : Shared} (h : s.IsMemory) (key : Key) (record : Record) :
    (s.overwrite key record).1.IsMemory := by
  rw [s.overwrite_eq h]
  exact s.isMemory_answer h key _

/-- Writing over a record commutes with taking the times away. -/
theorem Shared.overwrite_unstamped {s : Shared} (h : s.IsMemory) (key : Key) (record : Record) :
    s.unstamped.overwrite key record.unstamped
      = ((s.overwrite key record).1.unstamped, (s.overwrite key record).2.unstamped) := by
  rw [Shared.overwrite_eq (isMemory_unstamped h), s.record?_unstamped h, overwriting_unstamped,
    s.answer_unstamped h, s.overwrite_eq h]

namespace Link

/-- Which harm meets a call does not depend on times. -/
theorem takeFault_unstamped (call : Call) (faults : List Fault) :
    takeFault call (faults.map Fault.unstamped)
      = (takeFault call faults).map fun (harm, rest) =>
        (harm.unstamped, rest.map Fault.unstamped) := by
  induction faults with
  | nil => rfl
  | cons fault rest ih =>
    simp only [List.map_cons, takeFault]
    show (if fault.call = call then _ else _) = _
    by_cases hcall : fault.call = call
    · simp only [if_pos hcall]
      rfl
    · simp only [if_neg hcall, ih]
      cases takeFault call rest <;> rfl

/-- A link treats a call in the same way whatever times it carries. -/
theorem deliver_unstamped (l : Link) {s : Shared} (h : s.IsMemory) (key : Key)
    (request : Request) :
    l.unstamped.deliver s.unstamped key request.unstamped
      = ((l.deliver s key request).1.unstamped, (l.deliver s key request).2.1.unstamped,
        (l.deliver s key request).2.2.unstamped) := by
  have htake : takeFault request.unstamped.call l.unstamped.faults
      = (takeFault request.call l.faults).map fun (harm, rest) =>
        (harm.unstamped, rest.map Fault.unstamped) := by
    rw [request.call_unstamped]
    exact takeFault_unstamped request.call l.faults
  unfold deliver
  rw [htake]
  cases takeFault request.call l.faults with
  | none =>
    show (l.unstamped, s.unstamped.answer key request.unstamped) = _
    rw [s.answer_unstamped h]
  | some taken =>
    obtain ⟨harm, rest⟩ := taken
    cases harm with
    | fails error => rfl
    | overtaken record =>
      -- someone else writes first, so two calls reach the store
      show (_, (s.unstamped.overwrite key record.unstamped).1.answer key request.unstamped) = _
      rw [s.overwrite_unstamped h, Shared.answer_unstamped (s.isMemory_overwrite h key record)]
      rfl

end Link

/-! ### What a store has held -/

/-- What was once in a store under a key is still there, or was there before what is
there now. -/
def Shared.Grows (s s' : Shared) : Prop :=
  ∀ key record, Seen (s.record? key) record → Seen (s'.record? key) record

namespace Shared

variable {s s' s'' : Shared}

/-- A store has forgotten nothing of itself. -/
theorem Grows.refl (s : Shared) : s.Grows s := fun _ _ h => h

/-- Two stretches in which nothing is forgotten make one. -/
theorem Grows.trans (h : s.Grows s') (h' : s'.Grows s'') : s.Grows s'' :=
  fun key record hseen => h' key record (h key record hseen)

/-- A call about one key leaves the records of the others. -/
theorem record?_answer_other (h : s.IsMemory) {key other : Key} (hne : other ≠ key)
    (request : Request) : (s.answer key request).1.record? other = s.record? other := by
  obtain ⟨backing, files⟩ := s
  obtain ⟨records, rfl⟩ : ∃ records, backing = .memory records := h
  exact records.answer_get_other key other request hne

/-- A write puts a higher version in place, so a call forgets nothing. -/
theorem grows_answer (h : s.IsMemory) (key : Key) (request : Request) :
    s.Grows (s.answer key request).1 := by
  intro other record hseen
  by_cases hkey : other = key
  · subst hkey
    -- the record is the same as before, or the one that was written
    rcases (s.answer_decided h other request).written with ⟨-, hsame⟩ | ⟨w, -, -, -, hsucceeds⟩
    · rw [hsame]
      exact hseen
    · exact (hseen.succeeds hsucceeds).1
  · rw [record?_answer_other h hkey]
    exact hseen

end Shared

/-- What a client may rely on when its call about a key was answered. -/
structure Told (key : Key) (request : Request) (s s' : Shared) (reply : Reply) : Prop where
  memory : s'.IsMemory
  grows : s.Grows s'
  found : ∀ current, reply = .found current → s'.record? key = current
  stamped : ∀ w, reply.stamp? request = some w → s'.record? key = some w

/-- A client may rely on what a store in memory replies. -/
theorem Shared.told_answer {s : Shared} (h : s.IsMemory) (key : Key) (request : Request) :
    Told key request s (s.answer key request).1 (s.answer key request).2 where
  memory := s.isMemory_answer h key request
  grows := grows_answer h key request
  found current hreply := by
    obtain ⟨hsame, hcurrent⟩ := (s.answer_served h key request).2.found hreply
    rw [hsame, hcurrent]
  stamped w hstamp := by
    rcases (s.answer_decided h key request).written with ⟨hnone, -⟩ | ⟨w', hw, hafter, -⟩
    · rw [hnone] at hstamp
      cases hstamp
    · rw [hafter, ← hw, hstamp]

/-- The same holds at the end of a link, whatever harm is waiting there. -/
theorem Link.told_deliver (l : Link) {s : Shared} (h : s.IsMemory) (key : Key)
    (request : Request) :
    Told key request s (l.deliver s key request).2.1 (l.deliver s key request).2.2 := by
  unfold deliver
  split
  · exact s.told_answer h key request
  · -- nothing was asked of the store
    refine ⟨h, .refl s, fun current hreply => ?_, fun w hstamp => ?_⟩
    · cases hreply
    · cases hstamp
  · rename_i record rest htake
    have hmemory := s.isMemory_overwrite h key record
    have hgrows : s.Grows (s.overwrite key record).1 := by
      rw [s.overwrite_eq h]
      exact Shared.grows_answer h key _
    have htold := Shared.told_answer hmemory key request
    exact ⟨htold.memory, hgrows.trans htold.grows, htold.found, htold.stamped⟩

end Store

end Tenure
