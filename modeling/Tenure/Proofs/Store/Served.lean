import Tenure.Store.Link

/-!
# `Tenure.Proofs.Store.Served`: how a store in memory serves a call

What a call does to the record of its key, in one relation: a lookup tells the
record, a creation succeeds where there is none, an update succeeds at the version
that it expects, and everything else fails and changes nothing. A link that does
not let anyone else write serves a call in the same way.

* `Shared.answer_served` and `Link.deliver_served`: a store in memory serves every
  call, and so does a link whose harms only fail.
* `Served.replaced_of_written`: an update that expects the version of a record that
  was seen replaces that record.
* `Seen.succeeds`: after a write no record that was seen before is current.
-/

set_option autoImplicit false

namespace Tenure.Store

/-- Whether a reply is one that a store gives to a request. -/
def Reply.fits : Reply → Request → Bool
  | .found _, .get => true
  | .written _, .create _ => true
  | .written _, .update _ _ => true
  | .failed _, _ => true
  | _, _ => false

/-- How a call is served: the record of its key before and after, and the reply. -/
inductive Served (before : Option (Versioned Record)) :
    Request → Option (Versioned Record) → Reply → Prop
  | read : Served before .get before (.found before)
  | created {record : Record} (habsent : before = none) :
      Served before (.create record) (some ⟨Versioned.initial, record⟩) (.written Versioned.initial)
  | updated {current : Versioned Record} {record : Record} (hcurrent : before = some current) :
      Served before (.update record current.version) (some ⟨current.version + 1, record⟩)
        (.written (current.version + 1))
  | failed {request : Request} (error : Error) : Served before request before (.failed error)

section

variable {before after : Option (Versioned Record)} {request : Request} {reply : Reply}

/-- A lookup tells the record and changes nothing. -/
theorem Served.found (h : Served before request after reply) {record : Option (Versioned Record)}
    (hreply : reply = .found record) : after = before ∧ record = before := by
  cases h with
  | read =>
    cases hreply
    exact ⟨rfl, rfl⟩
  | created habsent => cases hreply
  | updated hcurrent => cases hreply
  | failed error => cases hreply

/-- A call that has failed has changed nothing. -/
theorem Served.same_of_failed (h : Served before request after reply) {error : Error}
    (hreply : reply = .failed error) : after = before := by
  cases h with
  | read => rfl
  | created habsent => cases hreply
  | updated hcurrent => cases hreply
  | failed error => rfl

/-- What is replied fits the call. -/
theorem Served.fits (h : Served before request after reply) : reply.fits request = true := by
  cases h <;> rfl

end

/-- In memory every call is served as its kind demands. -/
theorem Memory.answer_served (m : Memory) (key : Key) (request : Request) :
    Served (m.get key) request ((m.answer key request).1.get key) (m.answer key request).2 := by
  cases request with
  | get => exact .read
  | create record =>
    simp only [answer]
    cases hget : m.get key with
    | none =>
      simp only [get_put_self]
      exact .created rfl
    | some current =>
      simp only [hget]
      exact .failed _
  | update record expected =>
    simp only [answer]
    cases hget : m.get key with
    | none =>
      simp only [hget]
      exact .failed _
    | some current =>
      simp only
      -- an update whose version is expected replaces the record, any other fails
      split
      · rename_i hversion
        rw [get_put_self, ← hversion]
        exact .updated rfl
      · rw [hget]
        exact .failed _

namespace Shared

/-- The store keeps its records in memory. -/
def IsMemory (s : Shared) : Prop := ∃ records, s.backing = .memory records

/-- The record of a key, when records are kept in memory. -/
def record? (s : Shared) (key : Key) : Option (Versioned Record) :=
  match s.backing with
  | .memory records => records.get key
  | .directory _ => none

/-- A shared store in memory serves every call, and stays in memory. -/
theorem answer_served {s : Shared} (h : s.IsMemory) (key : Key) (request : Request) :
    (s.answer key request).1.IsMemory
      ∧ Served (s.record? key) request ((s.answer key request).1.record? key)
        (s.answer key request).2 := by
  obtain ⟨backing, files⟩ := s
  obtain ⟨records, rfl⟩ : ∃ records, backing = .memory records := h
  exact ⟨⟨_, rfl⟩, records.answer_served key request⟩

end Shared

namespace Link

/-- The harms that wait at a link fail calls, and let nobody else write. -/
def OnlyFails (l : Link) : Prop := ∀ fault ∈ l.faults, ∃ error, fault.harm = .fails error

/-- A link that only fails calls does so also with one more failure to come. -/
theorem onlyFails_expect {l : Link} (h : l.OnlyFails) (call : Call) (error : Error) :
    (l.expect ⟨call, .fails error⟩).OnlyFails := by
  intro fault hmem
  rcases List.mem_append.mp hmem with hmem | hmem
  · exact h fault hmem
  · rw [List.mem_singleton.mp hmem]
    exact ⟨error, rfl⟩

/-- The harm that meets a call is one of those that waited, and the rest go on waiting. -/
theorem takeFault_mem {call : Call} {faults rest : List Fault} {harm : Harm}
    (h : takeFault call faults = some (harm, rest)) :
    (∃ fault ∈ faults, fault.harm = harm) ∧ ∀ fault ∈ rest, fault ∈ faults := by
  induction faults generalizing rest with
  | nil => cases h
  | cons first others ih =>
    simp only [takeFault] at h
    split at h
    · cases h
      exact ⟨⟨first, List.mem_cons_self, rfl⟩, fun fault hmem => List.mem_cons_of_mem _ hmem⟩
    · obtain ⟨⟨harm', rest'⟩, htake, heq⟩ := Option.map_eq_some_iff.mp h
      cases heq
      obtain ⟨⟨fault, hmem, hharm⟩, hrest⟩ := ih htake
      refine ⟨⟨fault, List.mem_cons_of_mem _ hmem, hharm⟩, fun other hother => ?_⟩
      rcases List.mem_cons.mp hother with rfl | hother
      · exact List.mem_cons_self
      · exact List.mem_cons_of_mem _ (hrest other hother)

/-- A call over a link that only fails is served or fails, and in either case nobody else has
written. -/
theorem deliver_served {l : Link} {s : Shared} (hl : l.OnlyFails) (hs : s.IsMemory) (key : Key)
    (request : Request) :
    (l.deliver s key request).1.OnlyFails ∧ (l.deliver s key request).2.1.IsMemory
      ∧ Served (s.record? key) request ((l.deliver s key request).2.1.record? key)
        (l.deliver s key request).2.2 := by
  have hanswer := Shared.answer_served hs key request
  unfold deliver
  split
  · exact ⟨hl, hanswer⟩
  · rename_i error rest htake
    have hrest := (takeFault_mem htake).2
    exact ⟨fun fault hmem => hl fault (hrest fault hmem), hs, .failed error⟩
  · -- nobody else writes, so this harm does not wait
    rename_i record rest htake
    obtain ⟨fault, hmem, hharm⟩ := (takeFault_mem htake).1
    obtain ⟨error, herror⟩ := hl fault hmem
    rw [hharm] at herror
    cases herror

end Link

/-! ### Records that were seen -/

/-- A record that was read from the store: the current one, or an older one. -/
def Seen (current : Option (Versioned Record)) (record : Versioned Record) : Prop :=
  ∃ latest, current = some latest ∧ record.version ≤ latest.version
    ∧ (record.version = latest.version → record = latest)

/-- A write has put another record in place of what was there. -/
inductive Succeeds (before : Option (Versioned Record)) : Option (Versioned Record) → Prop
  | first {record : Record} (habsent : before = none) :
      Succeeds before (some ⟨Versioned.initial, record⟩)
  | next {current : Versioned Record} {record : Record} (hcurrent : before = some current) :
      Succeeds before (some ⟨current.version + 1, record⟩)

variable {before after : Option (Versioned Record)} {record : Versioned Record}

/-- The first record is written only where there is none. -/
theorem Served.created_of_written {version : Nat} {value : Record}
    (h : Served before (.create value) after (.written version)) :
    before = none ∧ after = some ⟨Versioned.initial, value⟩ ∧ version = Versioned.initial := by
  cases h with
  | created habsent => exact ⟨habsent, rfl, rfl⟩

/-- An update that was written has replaced the record that was read, and no other. -/
theorem Served.replaced_of_written {version : Nat} {value : Record}
    (h : Served before (.update value record.version) after (.written version))
    (hseen : Seen before record) :
    before = some record ∧ after = some ⟨record.version + 1, value⟩
      ∧ version = record.version + 1 := by
  generalize hrequest : Request.update value record.version = request at h
  cases h with
  | created habsent => cases hrequest
  | @updated latest written hcurrent =>
    injection hrequest with hvalue hversion
    obtain ⟨latest', hlatest, -, hsame⟩ := hseen
    obtain rfl : latest = latest' := Option.some.inj (hcurrent.symm.trans hlatest)
    -- the version that was expected is the current one, so nothing came between
    obtain rfl := hsame hversion
    exact ⟨hcurrent, by rw [hvalue], rfl⟩

/-- A write leaves another record than was there. -/
theorem Succeeds.ne (h : Succeeds before after) : after ≠ before := by
  cases h with
  | first habsent => simp [habsent]
  | next hcurrent =>
    rw [hcurrent]
    intro heq
    have hversion := congrArg (Option.map Versioned.version) heq
    simp only [Option.map_some, Option.some.injEq] at hversion
    omega

/-- The current record is one that was read from the store. -/
theorem seen_self (record : Versioned Record) : Seen (some record) record :=
  ⟨record, rfl, Nat.le_refl _, fun _ => rfl⟩

/-- A record that was seen stays one that was seen, and is no longer current. -/
theorem Seen.succeeds (hseen : Seen before record) (h : Succeeds before after) :
    Seen after record ∧ after ≠ some record := by
  obtain ⟨latest, hlatest, hle, -⟩ := hseen
  cases h with
  | first habsent =>
    rw [habsent] at hlatest
    cases hlatest
  | next hcurrent =>
    rw [hcurrent] at hlatest
    cases hlatest
    refine ⟨⟨_, rfl, Nat.le_succ_of_le hle, fun heq => ?_⟩, fun heq => ?_⟩
    · simp only at heq
      omega
    · have hversion := congrArg (Option.map Versioned.version) heq
      simp only [Option.map_some, Option.some.injEq] at hversion
      omega

end Tenure.Store
