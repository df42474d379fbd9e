import Tenure.Proofs.Lease.WallClock

/-!
# `Tenure.Proofs.Lease.Takeover`: when an attempt is granted

A client remembers the last record that it has seen and since when. What it has
seen changes with every record that it finds, writes or gives up, and is never told
to anyone. This module says without that memory when an attempt is granted: from
the history of the script alone.

## Sightings

`Table.sightings` lists the attempts of one client that found a record, each with
the version of what it found and the instant. Someone else's lock is free for a
client when the lease of the record, counted from any sighting of its version, has
run out; it does not matter what else the client has seen or written in between.

## What ties the memory to the history

`Client.Tracks` is the invariant. While the record is someone else's, the client
remembers it exactly when there is a sighting of its version, and then since the
first of them. For a record of its own or of nobody the client may remember what it
has written itself, without a sighting, but such a record is never a bar. Writes
count the version up, so a record that was just written has no sightings: a foreign
write, a renewal by its holder and an own write are one case.

* `Seat.acquire_acquires` and `Seat.release_releases`: an attempt at a store in
  memory that nothing harms, with all its calls.
* `Client.Tracks.isBarred_iff`: whether a client that looks at a record is barred
  can be read off the sightings.
* `Table.Tracked.after`: a script keeps the invariant.
* `Table.acquire_granted_iff`: the rule for every attempt of every script.
-/

set_option autoImplicit false

namespace Tenure

namespace Store.Shared

variable {s s' : Shared}

/-! ### Calls about one key -/

/-- Calls about a key were answered by a store in memory. The record of the key is
as before, or was written; those of other keys are as before. -/
structure Touched (key : Key) (s s' : Shared) : Prop where
  memory : s'.IsMemory
  record : s'.record? key = s.record? key ∨ Succeeds (s.record? key) (s'.record? key)
  others : ∀ other, other ≠ key → s'.record? other = s.record? other

/-- A store in memory that is left alone has only been touched about any key. -/
theorem touched_refl (h : s.IsMemory) (key : Key) : Touched key s s :=
  ⟨h, .inl rfl, fun _ _ => rfl⟩

/-- Answering a call touches the store about the key of the call. -/
theorem touched_answer (h : s.IsMemory) (key : Key) (request : Request) :
    Touched key s (s.answer key request).1 where
  memory := s.isMemory_answer h key request
  record := by
    rcases (s.answer_decided h key request).written with ⟨-, hsame⟩ | ⟨-, -, -, -, hsucceeds⟩
    · exact .inl hsame
    · exact .inr hsucceeds
  others _ hne := record?_answer_other h hne request

/-- Writing over a record touches the store about its key. -/
theorem touched_overwrite (h : s.IsMemory) (key : Key) (record : Record) :
    Touched key s (s.overwrite key record).1 := by
  rw [s.overwrite_eq h]
  exact s.touched_answer h key _

/-- A lookup tells the record and leaves the whole store as it is. -/
theorem answer_get (h : s.IsMemory) (key : Key) :
    s.answer key .get = (s, .found (s.record? key)) := by
  obtain ⟨backing, files⟩ := s
  obtain ⟨records, rfl⟩ : ∃ records, backing = .memory records := h
  rfl

end Store.Shared

/-- A link at which no harm waits passes a call on as it is. -/
theorem Store.Link.deliver_of_faults {l : Link} (h : l.faults = []) (s : Shared) (key : Key)
    (request : Request) : l.deliver s key request = (l, s.answer key request) := by
  simp [deliver, h, takeFault]

/-- Whether a record bars others: someone holds the lock, and it is not this identity. -/
def Record.isTaken (r : Record) (identity : String) : Bool :=
  r.isHeld && !r.isHeldBy identity

/-- For a client a record is free exactly if nobody holds it, or the client does. -/
theorem Record.isTaken_eq_false_iff (r : Record) (identity : String) :
    r.isTaken identity = false ↔ r.holder = "" ∨ r.holder = identity := by
  by_cases hheld : r.holder = "" <;> simp [isTaken, isHeld, isHeldBy, hheld]

namespace Lease

open Store

/-- An attempt has found a record: its version, and when. -/
structure Sighting where
  version : Nat
  instant : Nat
deriving Repr, DecidableEq

namespace Client

/-! ### An attempt with all its calls, undisturbed -/

/-- How an attempt of a client ends: the record before and after, what the client
knows then, and the outcome. -/
inductive Acquires (c : Client) (now : Moment) (before : Option (Versioned Record)) :
    Option (Versioned Record) → Client → Outcome → Prop
  /-- There is no record, and the client writes the first one. -/
  | founds (habsent : before = none) :
      Acquires c now before (some ⟨Versioned.initial, c.founded now.wall⟩)
        (c.observe ⟨Versioned.initial, c.founded now.wall⟩ now.instant)
        ⟨true, some (c.founded now.wall)⟩
  /-- The lock is someone else's, and the lease has not run out. -/
  | yields {current : Versioned Record} (hcurrent : before = some current)
      (hbarred : (c.observeIfChanged current now.instant).isBarred current.value now.instant
        = true) :
      Acquires c now before before (c.observeIfChanged current now.instant)
        ⟨false, some current.value⟩
  /-- The client writes its record in place of the one that it has found. -/
  | claims {current : Versioned Record} {desired : Record} (hcurrent : before = some current)
      (hfree : (c.observeIfChanged current now.instant).isBarred current.value now.instant
        = false)
      (hdesired : desired
        = (c.observeIfChanged current now.instant).succeeding now.wall current.value) :
      Acquires c now before (some ⟨current.version + 1, desired⟩)
        ((c.observeIfChanged current now.instant).observe ⟨current.version + 1, desired⟩
          now.instant)
        ⟨true, some desired⟩

/-- How giving up ends: the record before and after, what the client knows then, and
whether it gave the lock up. -/
inductive Releases (c : Client) (now : Moment) (before : Option (Versioned Record)) :
    Option (Versioned Record) → Client → Bool → Prop
  /-- There is nothing to give up. -/
  | keeps : Releases c now before before c false
  /-- The client writes the record of a lock that was given up. -/
  | vacates {current : Versioned Record} (hcurrent : before = some current) :
      Releases c now before (some ⟨current.version + 1, released now.wall current.value⟩)
        (c.observe ⟨current.version + 1, released now.wall current.value⟩ now.instant) true

end Client

namespace Seat

variable {seat : Seat} {s : Shared}

/-- The version that was just looked up is the one that an update expects, so the
update is written. -/
theorem answer_update (hs : s.IsMemory) {key : Key} {current : Versioned Record}
    (hcurrent : s.record? key = some current) (record : Record) :
    (s.answer key (.update record current.version)).2 = .written (current.version + 1)
      ∧ (s.answer key (.update record current.version)).1.record? key
        = some ⟨current.version + 1, record⟩ := by
  have hdecided := s.answer_decided hs key (.update record current.version)
  have hupdated : Decided key (s.record? key) (.update record current.version)
      (some ⟨current.version + 1, record⟩) (.written (current.version + 1)) :=
    .updated hcurrent rfl
  obtain ⟨hrecord, hreply⟩ := hdecided.unique hupdated
  exact ⟨hreply, hrecord⟩

/-- Where there is no record, a creation is written. -/
theorem answer_create (hs : s.IsMemory) {key : Key} (habsent : s.record? key = none)
    (record : Record) :
    (s.answer key (.create record)).2 = .written Versioned.initial
      ∧ (s.answer key (.create record)).1.record? key = some ⟨Versioned.initial, record⟩ := by
  have hdecided := s.answer_decided hs key (.create record)
  have hcreated : Decided key (s.record? key) (.create record)
      (some ⟨Versioned.initial, record⟩) (.written Versioned.initial) := .created habsent
  obtain ⟨hrecord, hreply⟩ := hdecided.unique hcreated
  exact ⟨hreply, hrecord⟩

/-- Over a link at which no harm waits, a lookup tells what is stored. -/
theorem deliver_get (hs : s.IsMemory) (hfaults : seat.link.faults = []) (key : Key) :
    seat.link.deliver s key .get = (seat.link, s, .found (s.record? key)) := by
  rw [Link.deliver_of_faults hfaults, s.answer_get hs key]

/-- Over a link at which no harm waits, a call that is written changes the store and
nothing else. -/
theorem deliver_written (hfaults : seat.link.faults = []) {key : Key} {request : Request}
    {version : Nat} (hreply : (s.answer key request).2 = .written version) :
    seat.link.deliver s key request
      = (seat.link, (s.answer key request).1, .written version) := by
  rw [Link.deliver_of_faults hfaults, ← hreply]

/-- An attempt that finds no record writes the first one. -/
theorem acquire_founds (hs : s.IsMemory) (hfaults : seat.link.faults = []) (now : Moment)
    (habsent : s.record? seat.client.key = none) :
    seat.acquire s now
      = (⟨seat.client.observe ⟨Versioned.initial, seat.client.founded now.wall⟩ now.instant,
          seat.link⟩,
        (s.answer seat.client.key (.create (seat.client.founded now.wall))).1,
        .ok ⟨true, some (seat.client.founded now.wall)⟩) := by
  have hlook := deliver_get hs hfaults seat.client.key
  rw [habsent] at hlook
  have hwrite := deliver_written hfaults
    (answer_create hs habsent (seat.client.founded now.wall)).1
  exact (acquireFrom_ask hlook rfl 1).trans (acquireFrom_finished hwrite rfl 0)

/-- An attempt that finds itself barred ends there, and knows the record from then on. -/
theorem acquire_yields (hs : s.IsMemory) (hfaults : seat.link.faults = []) (now : Moment)
    {current : Versioned Record} (hcurrent : s.record? seat.client.key = some current)
    (hbarred : (seat.client.observeIfChanged current now.instant).isBarred current.value
      now.instant = true) :
    seat.acquire s now = (⟨seat.client.observeIfChanged current now.instant, seat.link⟩, s,
      .ok ⟨false, some current.value⟩) := by
  have hlook := deliver_get hs hfaults seat.client.key
  rw [hcurrent] at hlook
  have hanswer : seat.client.answer (.looking now.wall) now.instant (.found (some current))
      = (seat.client.observeIfChanged current now.instant,
        .finished (.ok ⟨false, some current.value⟩)) := by
    simp only [Client.answer]
    exact if_pos hbarred
  exact acquireFrom_finished hlook hanswer 1

/-- An attempt that is not barred writes its record in place of the one that it has
found. -/
theorem acquire_claims (hs : s.IsMemory) (hfaults : seat.link.faults = []) (now : Moment)
    {current : Versioned Record} (hcurrent : s.record? seat.client.key = some current)
    {looked : Client} (hlooked : seat.client.observeIfChanged current now.instant = looked)
    (hfree : looked.isBarred current.value now.instant = false) :
    seat.acquire s now
      = (⟨looked.observe ⟨current.version + 1, looked.succeeding now.wall current.value⟩
          now.instant, seat.link⟩,
        (s.answer seat.client.key
          (.update (looked.succeeding now.wall current.value) current.version)).1,
        .ok ⟨true, some (looked.succeeding now.wall current.value)⟩) := by
  have hlook := deliver_get hs hfaults seat.client.key
  rw [hcurrent] at hlook
  have hask : seat.client.answer (.looking now.wall) now.instant (.found (some current))
      = (looked, .ask (.claiming current (looked.succeeding now.wall current.value))) := by
    simp only [Client.answer, hlooked]
    exact if_neg (by simpa using hfree)
  have hwrite := deliver_written hfaults
    (answer_update hs hcurrent (looked.succeeding now.wall current.value)).1
  -- the second call goes to the key of the client that has looked, which is the same
  rw [← (Client.isSame_observeIfChanged seat.client current now.instant).key_eq, hlooked]
    at hwrite ⊢
  exact (acquireFrom_ask hlook hask 1).trans (acquireFrom_finished hwrite rfl 0)

/-- An attempt at a store in memory ends in one of the ways, and when it is not
granted the store is as before. -/
theorem acquire_acquires (hs : s.IsMemory) (hfaults : seat.link.faults = []) (now : Moment) :
    ∃ client s' outcome, seat.acquire s now = (⟨client, seat.link⟩, s', .ok outcome)
      ∧ s.Touched seat.client.key s'
      ∧ seat.client.Acquires now (s.record? seat.client.key) (s'.record? seat.client.key) client
        outcome
      ∧ (outcome.granted = false → s' = s) := by
  -- no record is founded upon; one that bars is left alone; any other is claimed
  cases hrecord : s.record? seat.client.key with
  | none =>
    refine ⟨_, _, _, acquire_founds hs hfaults now hrecord, s.touched_answer hs _ _, ?_,
      fun hdenied => by cases hdenied⟩
    rw [(answer_create hs hrecord _).2]
    exact .founds rfl
  | some current =>
    cases hbarred : (seat.client.observeIfChanged current now.instant).isBarred current.value
        now.instant with
    | true =>
      refine ⟨_, s, _, acquire_yields hs hfaults now hrecord hbarred, s.touched_refl hs _, ?_,
        fun _ => rfl⟩
      rw [hrecord]
      exact .yields rfl hbarred
    | false =>
      refine ⟨_, _, _, acquire_claims hs hfaults now hrecord rfl hbarred,
        s.touched_answer hs _ _, ?_, fun hdenied => by cases hdenied⟩
      rw [(answer_update hs hrecord _).2]
      exact .claims rfl hbarred rfl

/-- Giving up leaves alone what this client does not hold. -/
theorem release_keeps (hs : s.IsMemory) (hfaults : seat.link.faults = []) (now : Moment)
    (hother : ∀ current, s.record? seat.client.key = some current →
      current.value.isHeldBy seat.client.identity = false) :
    seat.release s now = (⟨seat.client, seat.link⟩, s, .ok false) := by
  have hlook := deliver_get hs hfaults seat.client.key
  cases hrecord : s.record? seat.client.key with
  | none =>
    rw [hrecord] at hlook
    exact releaseFrom_finished hlook rfl 1
  | some current =>
    rw [hrecord] at hlook
    have hanswer : seat.client.answerRelease .looking now (.found (some current))
        = (seat.client, .finished (.ok false)) := by
      simp only [Client.answerRelease]
      exact if_neg (by simpa using hother current hrecord)
    exact releaseFrom_finished hlook hanswer 1

/-- Giving up writes the record of a free lock in place of the client's own. -/
theorem release_vacates (hs : s.IsMemory) (hfaults : seat.link.faults = []) (now : Moment)
    {current : Versioned Record} (hcurrent : s.record? seat.client.key = some current)
    (hheld : current.value.isHeldBy seat.client.identity = true) :
    seat.release s now
      = (⟨seat.client.observe ⟨current.version + 1, Client.released now.wall current.value⟩
          now.instant, seat.link⟩,
        (s.answer seat.client.key
          (.update (Client.released now.wall current.value) current.version)).1, .ok true) := by
  have hlook := deliver_get hs hfaults seat.client.key
  rw [hcurrent] at hlook
  have hask : seat.client.answerRelease .looking now (.found (some current))
      = (seat.client, .ask (.vacating current (Client.released now.wall current.value))) := by
    simp only [Client.answerRelease]
    exact if_pos hheld
  have hwrite := deliver_written hfaults
    (answer_update hs hcurrent (Client.released now.wall current.value)).1
  exact (releaseFrom_ask hlook hask 1).trans (releaseFrom_finished hwrite rfl 0)

/-- Giving up over a healthy link ends as it should, and touches the store about the
client's key. -/
theorem release_releases (hs : s.IsMemory) (hfaults : seat.link.faults = []) (now : Moment) :
    ∃ client s' given, seat.release s now = (⟨client, seat.link⟩, s', .ok given)
      ∧ s.Touched seat.client.key s'
      ∧ seat.client.Releases now (s.record? seat.client.key) (s'.record? seat.client.key) client
        given := by
  by_cases hheld : ∃ current, s.record? seat.client.key = some current
      ∧ current.value.isHeldBy seat.client.identity = true
  · obtain ⟨current, hrecord, hheld⟩ := hheld
    refine ⟨_, _, _, release_vacates hs hfaults now hrecord hheld, s.touched_answer hs _ _, ?_⟩
    rw [hrecord, (answer_update hs hrecord _).2]
    exact .vacates rfl
  · have hother : ∀ current, s.record? seat.client.key = some current →
        current.value.isHeldBy seat.client.identity = false := fun current hrecord =>
      Bool.eq_false_iff.mpr fun hyes => hheld ⟨current, hrecord, hyes⟩
    exact ⟨_, s, _, release_keeps hs hfaults now hother, s.touched_refl hs _, .keeps⟩

end Seat

namespace Client

/-! ### What a client remembers, and what it has seen -/

/-- What a client remembers of the record of its key, against the sightings of it. -/
structure Tracks (sightings : List Sighting) (current : Option (Versioned Record)) (now : Nat)
    (c : Client) : Prop where
  known : ∀ o ∈ c.observed, Seen current o.record
  /-- Nobody has seen a version that is yet to come. -/
  past : ∀ s ∈ sightings, s.instant ≤ now
    ∧ ∃ latest, current = some latest ∧ s.version ≤ latest.version
  /-- Someone else's record is remembered since the first sighting of its version. -/
  since : ∀ latest, current = some latest → latest.value.isTaken c.identity = true →
    ∀ o ∈ c.observed, o.record = latest → ⟨latest.version, o.since⟩ ∈ sightings
      ∧ ∀ s ∈ sightings, s.version = latest.version → o.since ≤ s.instant
  /-- Someone else's record is remembered once there is a sighting of its version. -/
  found : ∀ latest, current = some latest → latest.value.isTaken c.identity = true →
    ∀ s ∈ sightings, s.version = latest.version → ∃ o ∈ c.observed, o.record = latest

variable {c : Client} {sightings : List Sighting} {current current' : Option (Versioned Record)}
  {record : Versioned Record} {now : Nat}

/-- A client that has observed nothing remembers what it has seen, which is nothing. -/
theorem tracks_fresh (h : c.observed = none) (current : Option (Versioned Record)) (now : Nat) :
    c.Tracks [] current now where
  known o ho := by simp [h] at ho
  past s hs := by cases hs
  since _ _ _ o ho := by simp [h] at ho
  found _ _ _ s hs := by cases hs

/-- What a client remembers stays true as time passes. -/
theorem Tracks.pass (h : c.Tracks sightings current now) {t : Nat} (hle : now ≤ t) :
    c.Tracks sightings current t :=
  { h with past := fun s hs => ⟨Nat.le_trans (h.past s hs).1 hle, (h.past s hs).2⟩ }

/-- A record that was just written has not been seen by anyone. -/
theorem Tracks.succeeds (h : c.Tracks sightings current now) (hs : Succeeds current current') :
    c.Tracks sightings current' now := by
  -- every sighting was of an older version than the new record has
  have hnew : ∀ s ∈ sightings, ∃ latest, current' = some latest ∧ s.version < latest.version := by
    intro s hmem
    obtain ⟨-, latest, hlatest, hle⟩ := h.past s hmem
    cases hs with
    | first habsent => simp [habsent] at hlatest
    | next hcurrent =>
      obtain rfl := Option.some.inj (hcurrent.symm.trans hlatest)
      exact ⟨_, rfl, Nat.lt_succ_of_le hle⟩
  refine ⟨fun o ho => ((h.known o ho).succeeds hs).1, ?_, ?_, ?_⟩
  · intro s hmem
    obtain ⟨latest, hlatest, hlt⟩ := hnew s hmem
    exact ⟨(h.past s hmem).1, latest, hlatest, Nat.le_of_lt hlt⟩
  · intro latest hlatest _ o ho hsame
    exact absurd (hlatest.trans (congrArg some hsame.symm)) ((h.known o ho).succeeds hs).2
  · intro latest hlatest _ s hmem hversion
    obtain ⟨latest', hlatest', hlt⟩ := hnew s hmem
    obtain rfl := Option.some.inj (hlatest.symm.trans hlatest')
    omega

/-- Calls of others about any key keep what a client remembers of its own. -/
theorem Tracks.touched {s s' : Shared} {key other : Key}
    (h : c.Tracks sightings (s.record? key) now) (ht : s.Touched other s') :
    c.Tracks sightings (s'.record? key) now := by
  by_cases hkey : key = other
  · subst hkey
    rcases ht.record with hsame | hsucceeds
    · rwa [hsame]
    · exact h.succeeds hsucceeds
  · rwa [ht.others key hkey]

/-- A client may remember what it has written itself: its own record, or nobody's. -/
theorem Tracks.wrote (h : c.Tracks sightings current now) (hs : Succeeds current (some record))
    (hfree : record.value.isTaken c.identity = false) :
    (c.observe record now).Tracks sightings (some record) now := by
  refine ⟨?_, (h.succeeds hs).past, ?_, ?_⟩
  · intro o ho
    obtain rfl : (⟨record, now⟩ : Observation) = o := Option.some.inj ho
    exact seen_self record
  · intro latest hlatest htaken
    cases hlatest
    exact absurd (htaken.symm.trans hfree) (by decide)
  · intro latest hlatest htaken
    cases hlatest
    exact absurd (htaken.symm.trans hfree) (by decide)

/-- No sighting lies ahead of the record as it is now, nor does one more of this record. -/
theorem Tracks.past_concat (h : c.Tracks sightings (some record) now) :
    ∀ s ∈ sightings ++ [⟨record.version, now⟩], s.instant ≤ now
      ∧ ∃ latest, some record = some latest ∧ s.version ≤ latest.version := by
  intro s hmem
  rcases List.mem_append.mp hmem with hmem | hmem
  · exact h.past s hmem
  · rw [List.mem_singleton.mp hmem]
    exact ⟨Nat.le_refl _, record, rfl, Nat.le_refl _⟩

/-- A client that remembers the record and sees it again goes on to remember when it saw it
first: the new sighting is not earlier than that. -/
theorem Tracks.looked_again (h : c.Tracks sightings (some record) now)
    (hknown : ∃ o ∈ c.observed, o.record = record) :
    c.Tracks (sightings ++ [⟨record.version, now⟩]) (some record) now where
  known := h.known
  past := h.past_concat
  since latest hlatest htaken o ho hsame := by
    obtain ⟨hfirst, hleast⟩ := h.since latest hlatest htaken o ho hsame
    refine ⟨List.mem_append_left _ hfirst, fun s hmem hversion => ?_⟩
    rcases List.mem_append.mp hmem with hmem | hmem
    · exact hleast s hmem hversion
    · rw [List.mem_singleton.mp hmem]
      exact (h.past _ hfirst).1
  found latest hlatest _ _ _ _ := by
    cases hlatest
    exact hknown

/-- A client that does not remember the record has no sighting of its version, so it remembers
that it sees it now. -/
theorem Tracks.looked_first (h : c.Tracks sightings (some record) now)
    (hnew : ¬ ∃ o ∈ c.observed, o.record = record) :
    (c.observe record now).Tracks (sightings ++ [⟨record.version, now⟩]) (some record) now where
  known o ho := by
    obtain rfl : (⟨record, now⟩ : Observation) = o := Option.some.inj ho
    exact seen_self record
  past := h.past_concat
  since latest hlatest htaken o ho _ := by
    cases hlatest
    obtain rfl : (⟨record, now⟩ : Observation) = o := Option.some.inj ho
    refine ⟨List.mem_append_right _ List.mem_cons_self, fun s hmem hversion => ?_⟩
    rcases List.mem_append.mp hmem with hmem | hmem
    · exact absurd (h.found record rfl htaken s hmem hversion) hnew
    · obtain rfl := List.mem_singleton.mp hmem
      exact Nat.le_refl now
  found latest hlatest _ _ _ _ := by
    cases hlatest
    exact ⟨⟨record, now⟩, rfl, rfl⟩

/-- A client that looks at the record remembers it, and this is a sighting. -/
theorem Tracks.looked (h : c.Tracks sightings (some record) now) :
    (c.observeIfChanged record now).Tracks (sightings ++ [⟨record.version, now⟩]) (some record) now
      ∧ ∃ o ∈ (c.observeIfChanged record now).observed, o.record = record := by
  by_cases hknown : ∃ o ∈ c.observed, o.record = record
  · have hkept : c.observeIfChanged record now = c := by
      obtain ⟨o, ho, hsame⟩ := hknown
      simp [observeIfChanged, Option.mem_def.mp ho, hsame]
    rw [hkept]
    exact ⟨h.looked_again hknown, hknown⟩
  · have hnew : c.observeIfChanged record now = c.observe record now := by
      unfold observeIfChanged
      split
      · rename_i o hobserved
        exact if_neg fun hsame => hknown ⟨o, hobserved, hsame⟩
      · rfl
    rw [hnew]
    exact ⟨h.looked_first hknown, ⟨record, now⟩, rfl, rfl⟩

/-- Whether a client that remembers the record is barred can be read off the
sightings. -/
theorem Tracks.isBarred_iff (h : c.Tracks sightings (some record) now)
    (hknown : ∃ o ∈ c.observed, o.record = record) :
    c.isBarred record.value now = false ↔
      record.value.holder = "" ∨ record.value.holder = c.identity
        ∨ ∃ s ∈ sightings, s.version = record.version
          ∧ Clock.after s.instant record.value.lease ≤ now := by
  obtain ⟨o, ho, hsame⟩ := hknown
  have hbarred : c.isBarred record.value now
      = (record.value.isTaken c.identity
        && !decide (Clock.after o.since record.value.lease ≤ now)) := by
    simp [isBarred, leaseExpired, Record.isTaken, Option.mem_def.mp ho, hsame]
  rw [hbarred, ← or_assoc, ← Record.isTaken_eq_false_iff]
  cases htaken : record.value.isTaken c.identity with
  | false => simp
  | true =>
    obtain ⟨hfirst, hleast⟩ := h.since record rfl htaken o ho hsame
    simp only [Bool.true_and, Bool.not_eq_false', decide_eq_true_eq, Bool.true_eq_false, false_or]
    constructor
    · exact fun hexpired => ⟨_, hfirst, rfl, hexpired⟩
    · rintro ⟨s, hmem, hversion, hexpired⟩
      exact Nat.le_trans (Nat.add_le_add_right (hleast s hmem hversion) _) hexpired

/-- What a client remembers after an attempt, which is a sighting if it has found a
record. -/
theorem Tracks.acquires {c' : Client} {moment : Moment} {outcome : Outcome}
    (h : c.Tracks sightings current moment.instant)
    (hacquires : c.Acquires moment current current' c' outcome) :
    c.IsSame c' ∧ c'.Tracks (sightings ++ (current.map fun found =>
      (⟨found.version, moment.instant⟩ : Sighting)).toList) current' moment.instant := by
  cases hacquires with
  | founds habsent =>
    subst habsent
    refine ⟨⟨rfl, rfl, rfl⟩, ?_⟩
    rw [Option.map_none, Option.toList_none, List.append_nil]
    exact h.wrote (.first rfl)
      ((Record.isTaken_eq_false_iff _ _).mpr (.inr rfl))
  | yields hcurrent hbarred =>
    subst hcurrent
    exact ⟨isSame_observeIfChanged c _ _, h.looked.1⟩
  | @claims found desired hcurrent hfree hdesired =>
    subst hcurrent hdesired
    have hsame := isSame_observeIfChanged c found moment.instant
    refine ⟨⟨hsame.key_eq, hsame.identity_eq, hsame.lease_eq⟩, ?_⟩
    exact h.looked.1.wrote (.next rfl)
      ((Record.isTaken_eq_false_iff _ _).mpr (.inr (succeeding_holder _ _ _)))

/-- Whether an attempt is granted can be read off the sightings, the one that it makes
included. What it tells of the record is what it has found, or its own. -/
theorem Tracks.granted_iff {c' : Client} {moment : Moment} {outcome : Outcome}
    (h : c.Tracks sightings current moment.instant)
    (hacquires : c.Acquires moment current current' c' outcome) :
    (outcome.granted = true ↔ current = none ∨ ∃ found, current = some found
        ∧ (found.value.holder = "" ∨ found.value.holder = c.identity
          ∨ ∃ s ∈ sightings ++ (current.map fun found =>
              (⟨found.version, moment.instant⟩ : Sighting)).toList, s.version = found.version
            ∧ Clock.after s.instant found.value.lease ≤ moment.instant))
      ∧ (outcome.granted = false → outcome.record = current.map Versioned.value)
      ∧ (outcome.granted = true → ∃ latest, current' = some latest
        ∧ latest.value.holder = c.identity) := by
  cases hacquires with
  | founds habsent =>
    exact ⟨by simp [habsent], fun hdenied => (by cases hdenied), fun _ => ⟨_, rfl, rfl⟩⟩
  | @yields found hcurrent hbarred =>
    subst hcurrent
    obtain ⟨hlooked, hknown⟩ := h.looked
    -- having looked, the client knows since when it has seen this version, and so whether the lease
    -- has run out
    have hiff := hlooked.isBarred_iff hknown
    rw [hbarred, (isSame_observeIfChanged c found moment.instant).identity_eq] at hiff
    refine ⟨?_, fun _ => rfl, fun hgranted => (by cases hgranted)⟩
    simpa using hiff
  | @claims found desired hcurrent hfree hdesired =>
    subst hcurrent hdesired
    have hidentity := (isSame_observeIfChanged c found moment.instant).identity_eq
    obtain ⟨hlooked, hknown⟩ := h.looked
    have hiff := hlooked.isBarred_iff hknown
    rw [hfree, hidentity] at hiff
    refine ⟨?_, fun hdenied => (by cases hdenied), fun _ => ⟨_, rfl, ?_⟩⟩
    · simpa using hiff
    · exact (succeeding_holder _ _ _).trans hidentity

/-- Giving the lock up leaves the client with a true memory of what it has seen. -/
theorem Tracks.releases {c' : Client} {moment : Moment} {given : Bool}
    (h : c.Tracks sightings current moment.instant)
    (hreleases : c.Releases moment current current' c' given) :
    c.IsSame c' ∧ c'.Tracks sightings current' moment.instant := by
  cases hreleases with
  | keeps => exact ⟨⟨rfl, rfl, rfl⟩, h⟩
  | vacates hcurrent =>
    subst hcurrent
    exact ⟨⟨rfl, rfl, rfl⟩, h.wrote (.next rfl)
      ((Record.isTaken_eq_false_iff _ _).mpr (.inl rfl))⟩

end Client

/-! ### A script without faults -/

/-- Whether a step prepares harm for a call. -/
def Step.isFault : Step → Bool
  | fault _ _ => true
  | _ => false

namespace Table

/-- What a script leads to. -/
def after (t : Table) : List Step → Table
  | [] => t
  | step :: rest => (t.step step).1.after rest

/-- What a step lets a client see of the record of its key. -/
def sighting? (t : Table) (who : Nat) : Step → Option Sighting
  | .acquire actor _ =>
    if actor = who then
      t.seats[who]?.bind fun seat =>
        (t.store.record? seat.client.key).map fun found => ⟨found.version, t.now⟩
    else none
  | _ => none

/-- What the attempts of a client see of the record of its key, in the order of a
script. -/
def sightings (t : Table) (who : Nat) : List Step → List Sighting
  | [] => []
  | step :: rest => (t.sighting? who step).toList ++ (t.step step).1.sightings who rest

/-- A further step adds what it lets the client see. -/
theorem sightings_concat (t : Table) (who : Nat) (script : List Step) (step : Step) :
    t.sightings who (script ++ [step])
      = t.sightings who script ++ ((t.after script).sighting? who step).toList := by
  induction script generalizing t with
  | nil => simp [sightings, after]
  | cons first rest ih => simp only [List.cons_append, sightings, after, ih, List.append_assoc]

/-- The last answer of a run is given by what the steps before lead to. -/
theorem run_concat (t : Table) (script : List Step) (step : Step) :
    t.run (script ++ [step]) = t.run script ++ [(t.after script).step step] := by
  induction script generalizing t with
  | nil => rfl
  | cons first rest ih => simp only [List.cons_append, run, after, ih]

/-- The store is in memory, no harm waits at a link, and one client remembers what
it has seen. -/
structure Tracked (who : Nat) (client : Client) (sightings : List Sighting) (t : Table) :
    Prop where
  memory : t.store.IsMemory
  faults : ∀ seat ∈ t.seats, seat.link.faults = []
  seat : ∃ seat, t.seats[who]? = some seat ∧ client.IsSame seat.client
    ∧ seat.client.Tracks sightings (t.store.record? client.key) t.now

variable {t : Table} {who : Nat} {client : Client} {sightings : List Sighting}

/-- A client takes its turn, the one that is looked at or another one. -/
theorem Tracked.turn (h : t.Tracked who client sightings) {actor : Nat} {seat : Seat}
    {c' : Client} {s' : Shared} {seen : List Sighting} (hseat : t.seats[actor]? = some seat)
    (htouched : t.store.Touched seat.client.key s')
    (hother : actor ≠ who → seen = [])
    (hself : actor = who → seat.client.Tracks sightings (t.store.record? seat.client.key) t.now →
      seat.client.IsSame c'
        ∧ c'.Tracks (sightings ++ seen) (s'.record? seat.client.key) t.now) :
    Tracked who client (sightings ++ seen)
      { t with seats := t.seats.set actor ⟨c', seat.link⟩, store := s' } := by
  refine ⟨htouched.memory, fun other hmem => ?_, ?_⟩
  · rcases List.mem_or_eq_of_mem_set hmem with hmem | rfl
    · exact h.faults other hmem
    · exact h.faults seat (List.mem_of_getElem? hseat)
  · obtain ⟨mine, hmine, hsame, htracks⟩ := h.seat
    -- the memory of another client is not touched by what this one has seen
    by_cases hwho : actor = who
    · subst hwho
      obtain rfl : seat = mine := Option.some.inj (hseat.symm.trans hmine)
      rw [← hsame.key_eq] at htracks
      obtain ⟨hsame', htracks'⟩ := hself rfl htracks
      rw [hsame.key_eq] at htracks'
      have hlt : actor < t.seats.length := (List.getElem?_eq_some_iff.mp hseat).1
      exact ⟨⟨c', seat.link⟩, List.getElem?_set_self hlt,
        ⟨hsame'.key_eq.trans hsame.key_eq, hsame'.identity_eq.trans hsame.identity_eq,
          hsame'.lease_eq.trans hsame.lease_eq⟩, htracks'⟩
    · refine ⟨mine, (List.getElem?_set_ne hwho).trans hmine, hsame, ?_⟩
      rw [hother hwho, List.append_nil]
      exact htracks.touched htouched

/-- An attempt of any client, and what it lets the client that is looked at see. -/
theorem Tracked.acquire (h : t.Tracked who client sightings) (actor wall : Nat) :
    (t.step (.acquire actor wall)).1.Tracked who client
      (sightings ++ (t.sighting? who (.acquire actor wall)).toList) := by
  cases hseat : t.seats[actor]? with
  | none =>
    -- nobody sits there, so nothing is done and nothing is seen
    have hnone : t.sighting? who (.acquire actor wall) = none := by
      simp only [sighting?]
      split
      · rename_i hwho
        rw [← hwho, hseat]
        rfl
      · rfl
    rw [hnone, Option.toList_none, List.append_nil]
    simpa only [step, hseat] using h
  | some seat =>
    obtain ⟨c', s', outcome, hrun, htouched, hacquires, -⟩ :=
      Seat.acquire_acquires h.memory (h.faults seat (List.mem_of_getElem? hseat)) ⟨t.now, wall⟩
    simp only [step, hseat, hrun]
    refine h.turn hseat htouched (fun hne => by simp [sighting?, hne]) ?_
    rintro rfl htracks
    simpa [sighting?, hseat] using htracks.acquires hacquires

/-- Giving up by anybody at the table leaves the client with a true memory. -/
theorem Tracked.release (h : t.Tracked who client sightings) (actor wall : Nat) :
    (t.step (.release actor wall)).1.Tracked who client sightings := by
  cases hseat : t.seats[actor]? with
  | none => simpa only [step, hseat] using h
  | some seat =>
    obtain ⟨c', s', given, hrun, htouched, hreleases⟩ :=
      Seat.release_releases h.memory (h.faults seat (List.mem_of_getElem? hseat)) ⟨t.now, wall⟩
    simp only [step, hseat, hrun]
    rw [← List.append_nil sightings]
    refine h.turn hseat htouched (fun _ => rfl) ?_
    rintro rfl htracks
    simpa using htracks.releases hreleases

/-- A step keeps what a client remembers in line with what it has seen. -/
theorem Tracked.step (h : t.Tracked who client sightings) {step : Step}
    (hstep : step.isFault = false) :
    (t.step step).1.Tracked who client (sightings ++ (t.sighting? who step).toList) := by
  cases step with
  | acquire actor wall => exact h.acquire actor wall
  | release actor wall => simpa [sighting?] using h.release actor wall
  | advance span =>
    obtain ⟨seat, hseat, hsame, htracks⟩ := h.seat
    simp only [sighting?, Option.toList_none, List.append_nil]
    exact ⟨h.memory, h.faults, seat, hseat, hsame, htracks.pass (Nat.le_add_right _ _)⟩
  -- who writes from outside shows nothing to the client, and makes its sightings older
  | put record =>
    obtain ⟨seat, hseat, hsame, htracks⟩ := h.seat
    have htouched := t.store.touched_overwrite h.memory t.key record
    have hput : Tracked who client sightings
        { t with store := (t.store.overwrite t.key record).1 } :=
      ⟨htouched.memory, h.faults, seat, hseat, hsame, htracks.touched htouched⟩
    simp only [Table.step, sighting?, Option.toList_none, List.append_nil]
    generalize t.store.overwrite t.key record = written at hput ⊢
    obtain ⟨s', reply⟩ := written
    cases reply <;> exact hput
  | fault actor fault => cases hstep

/-- By induction on the script: what was seen before it, and then in it. -/
theorem Tracked.after (h : t.Tracked who client sightings) {script : List Step}
    (hscript : ∀ step ∈ script, step.isFault = false) :
    (t.after script).Tracked who client (sightings ++ t.sightings who script) := by
  induction script generalizing t sightings with
  | nil => simpa [Table.sightings, Table.after] using h
  | cons first rest ih =>
    have hrest := ih (h.step (hscript first List.mem_cons_self))
      fun step hmem => hscript step (List.mem_cons_of_mem _ hmem)
    simpa only [Table.sightings, Table.after, List.append_assoc] using hrest

/-- At a table of fresh clients with healthy links, each remembers what it has seen, which is
nothing. -/
theorem tracked_of_fresh (hstore : t.store.IsMemory)
    (hfresh : ∀ seat ∈ t.seats, seat.client.observed = none ∧ seat.link.faults = [])
    {seat : Seat} (hseat : t.seats[who]? = some seat) : t.Tracked who seat.client [] where
  memory := hstore
  faults other hmem := (hfresh other hmem).2
  seat := ⟨seat, hseat, ⟨rfl, rfl, rfl⟩,
    Client.tracks_fresh (hfresh seat (List.mem_of_getElem? hseat)).1 _ _⟩

/-- After any history of attempts, of giving up, of time that passes and of foreign
writes, an attempt ends without an error. It is granted exactly when there is no
record, or nobody holds the lock, or the client does, or the lease of the record has
run out since some sighting of its version, this one included. If it is not granted
it tells the record that it has found, and the whole store is as before; if it is,
the record in the store names the client. -/
theorem acquire_granted_iff (hstore : t.store.IsMemory)
    (hfresh : ∀ seat ∈ t.seats, seat.client.observed = none ∧ seat.link.faults = [])
    {history : List Step} (hhistory : ∀ step ∈ history, step.isFault = false)
    {seat : Seat} (hseat : t.seats[who]? = some seat) (wall : Nat) :
    let before := t.after history
    let found := before.store.record? seat.client.key
    ∃ after outcome, t.run (history ++ [.acquire who wall])
        = t.run history ++ [(after, .acquired outcome)]
      ∧ (outcome.granted = true ↔ found = none ∨ ∃ current, found = some current
        ∧ (current.value.holder = "" ∨ current.value.holder = seat.client.identity
          ∨ ∃ s ∈ t.sightings who (history ++ [.acquire who wall]), s.version = current.version
            ∧ Clock.after s.instant current.value.lease ≤ before.now))
      ∧ (outcome.granted = false → outcome.record = found.map Versioned.value
        ∧ after.store = before.store)
      ∧ (outcome.granted = true → ∃ latest, after.store.record? seat.client.key = some latest
        ∧ latest.value.holder = seat.client.identity) := by
  intro before found
  have htracked := (tracked_of_fresh hstore hfresh hseat).after hhistory
  rw [List.nil_append] at htracked
  obtain ⟨mine, hmine, hsame, htracks⟩ := htracked.seat
  obtain ⟨c', s', outcome, hrun, -, hacquires, hkept⟩ :=
    Seat.acquire_acquires htracked.memory (htracked.faults mine (List.mem_of_getElem? hmine))
      ⟨before.now, wall⟩
  -- the last step of the script is the attempt, from where the history has led
  have hstep : before.step (.acquire who wall)
      = ({ before with seats := before.seats.set who ⟨c', mine.link⟩, store := s' },
        .acquired outcome) := by
    simp only [before, step, hmine] at hrun ⊢
    rw [hrun]
  refine ⟨_, outcome, (t.run_concat history _).trans (by rw [hstep]), ?_⟩
  rw [hsame.key_eq] at hacquires
  rw [sightings_concat, show (t.after history).sighting? who (.acquire who wall)
      = found.map fun current => ⟨current.version, before.now⟩ by
    simp [sighting?, hmine, hsame.key_eq, before, found]]
  rw [← hsame.identity_eq]
  obtain ⟨hiff, hdenied, hgranted⟩ := htracks.granted_iff hacquires
  exact ⟨hiff, fun hno => ⟨hdenied hno, hkept hno⟩, hgranted⟩

/-- A lock that its holder leaves alone for the length of its lease: the other client
has seen it at the start and again a second before the lease runs out, and takes it
over on the strength of what it saw first. -/
theorem acquire_granted_iff_overdue :
    let key : Key := ⟨"test", "lock"⟩
    let seat (identity : String) : Seat := ⟨.new key identity (.ofSecs 15), .healthy⟩
    let t : Table := ⟨key, [seat "a", seat "b"], .inMemory, 0⟩
    let history : List Step :=
      [.acquire 0 5, .acquire 1 5, .advance (.ofSecs 14), .acquire 1 19, .advance (.ofSecs 1)]
    t.store.IsMemory ∧ (∀ seat ∈ t.seats, seat.client.observed = none ∧ seat.link.faults = [])
      ∧ (∀ step ∈ history, step.isFault = false) ∧ t.seats[1]? = some (seat "b")
      ∧ t.sightings 1 (history ++ [.acquire 1 20])
        = [⟨1, 0⟩, ⟨1, 14000000000⟩, ⟨1, 15000000000⟩]
      ∧ ∃ after outcome, t.run (history ++ [.acquire 1 20])
          = t.run history ++ [(after, .acquired outcome)]
        ∧ outcome.granted = true
        ∧ ∃ latest, after.store.record? key = some latest ∧ latest.value.holder = "b" := by
  intro key seat t history
  have hstore : t.store.IsMemory := ⟨.empty, rfl⟩
  have hfresh : ∀ seat ∈ t.seats, seat.client.observed = none ∧ seat.link.faults = [] := by
    intro seat hmem
    simp only [t, List.mem_cons, List.not_mem_nil, or_false] at hmem
    rcases hmem with rfl | rfl <;> exact ⟨rfl, rfl⟩
  have hhistory : ∀ step ∈ history, step.isFault = false := by
    intro step hmem
    simp only [history, List.mem_cons, List.not_mem_nil, or_false] at hmem
    rcases hmem with rfl | rfl | rfl | rfl | rfl <;> rfl
  -- the sightings and the record are computed; the grant follows from the theorem
  have hsightings : t.sightings 1 (history ++ [.acquire 1 20])
      = [⟨1, 0⟩, ⟨1, 14000000000⟩, ⟨1, 15000000000⟩] := by decide +kernel
  have hfound : (t.after history).store.record? key
      = some ⟨1, Client.founded (.new key "a" (.ofSecs 15)) 5⟩ := by decide +kernel
  have hseat : t.seats[1]? = some (seat "b") := rfl
  obtain ⟨after, outcome, hrun, hiff, -, hgrants⟩ :=
    acquire_granted_iff hstore hfresh hhistory hseat 20
  have hgranted : outcome.granted = true :=
    hiff.mpr (.inr ⟨_, hfound, .inr (.inr ⟨⟨1, 0⟩, by simp [hsightings], rfl, by decide⟩)⟩)
  exact ⟨hstore, hfresh, hhistory, hseat, hsightings, after, outcome, hrun, hgranted,
    hgrants hgranted⟩

end Table

end Lease

end Tenure
