import Mathlib.Logic.Function.Basic
import Tenure.Lease.Script
import Tenure.Proofs.Lease.Race

/-!
# `Tenure.Proofs.Lease.Ledger`: what the record tells of its owners

Any number of clients of one key, each at its own link to a store in memory, with any
number of attempts to take the lock, to renew it or to give it up. The calls of all
attempts come in any order, and any call may be made to fail. Nobody else writes.

Beside the store stands a ledger. It does not rely on what an attempt reports: after
every call the record of the key is compared with what it was, and a change is taken
down with the attempt whose call it was (`changesBy`). A taking is a granted attempt
that has put its record in place of none, or of one that it did not hold itself.

An attempt computes the count of changes from a record that it has read before, and
writes it only in place of that very record (`Seen`), whatever comes between. So each
change in the ledger is of one of four kinds (`Entry`), and a taking is the only one
that counts.

* `Answered.entered` and `AnsweredRelease.entered`: a call that is served leaves the
  record alone and its attempt without the lock, or makes an entry.
* `Ledger.Reachable.tenures_counted`: the record counts the takings but the first, up
  to the largest number that it can hold. The count never decreases; a renewal keeps it
  and the time of acquisition, giving up keeps it; whoever is not granted the lock and
  does not give it up has changed nothing.
-/

set_option autoImplicit false

namespace Tenure.Lease

open Store

/-! ### What an attempt is about to write -/

namespace AttemptStage

/-- The attempt has ended with the lock. -/
def isGranted : AttemptStage → Bool
  | taken (.ok outcome) => outcome.granted
  | _ => false

/-- The attempt has given the lock up. -/
def isReleased : AttemptStage → Bool
  | left (.ok done) => done
  | _ => false

/-- The attempt has ended with the lock or has given it up. -/
def isWon (t : AttemptStage) : Bool := t.isGranted || t.isReleased

end AttemptStage

/-- A record that a holder wants in place of another one: a renewal keeps the count of
changes and the time of acquisition, a takeover adds to the count. -/
def Follows (holder : String) (desired base : Record) : Prop :=
  if base.isHeldBy holder = true then
    desired.transitions = base.transitions ∧ desired.acquireTime = base.acquireTime
  else desired.transitions = Client.countTransition base.transitions

/-- What is known of the record that an attempt is about to write. -/
def AttemptStage.Intends (holder : String)
    (current : Option (Versioned Record)) : AttemptStage → Prop
  | taking (.founding desired) => desired.transitions = 0
  | taking (.claiming base desired) =>
    Seen current base ∧ Follows holder desired base.value
  | leaving (.vacating base released) =>
    Seen current base ∧ released.transitions = base.value.transitions
  | _ => True

/-- An attempt that has ended with a write: how it has ended, and what it has put in
place of what. -/
inductive Entry (holder : String) (before : Option (Versioned Record)) :
    AttemptStage → Record → Prop
  /-- The first record of the key. -/
  | founded {record : Record} (habsent : before = none) (hcount : record.transitions = 0) :
      Entry holder before (.taken (.ok ⟨true, some record⟩)) record
  /-- The holder goes on holding the lock. -/
  | renewed {base : Versioned Record} {record : Record} (hbase : before = some base)
      (hheld : base.value.isHeldBy holder = true)
      (hcount : record.transitions = base.value.transitions)
      (hsince : record.acquireTime = base.value.acquireTime) :
      Entry holder before (.taken (.ok ⟨true, some record⟩)) record
  /-- The lock changes hands. -/
  | takenOver {base : Versioned Record} {record : Record} (hbase : before = some base)
      (hheld : base.value.isHeldBy holder = false)
      (hcount : record.transitions = Client.countTransition base.value.transitions) :
      Entry holder before (.taken (.ok ⟨true, some record⟩)) record
  /-- The lock is given up. -/
  | vacated {base : Versioned Record} {record : Record} (hbase : before = some base)
      (hcount : record.transitions = base.value.transitions) :
      Entry holder before (.left (.ok true)) record

section Attempts

variable {holder : String} {before after current current' : Option (Versioned Record)}
  {stage : AttemptStage} {record : Record}

/-- Only an attempt that ends with the lock, or gives it up, makes an entry. -/
theorem Entry.isWon (h : Entry holder before stage record) : stage.isWon = true := by
  cases h <;> rfl

/-- A write of another attempt changes nothing of what this one is about to write. -/
theorem AttemptStage.Intends.succeeds (h : stage.Intends holder current)
    (hs : Succeeds current current') : stage.Intends holder current' := by
  unfold AttemptStage.Intends at h ⊢
  split at h
  · exact h
  · exact ⟨(h.1.succeeds hs).1, h.2⟩
  · exact ⟨(h.1.succeeds hs).1, h.2⟩
  · trivial

/-- The record that a client wants in place of another one is one that follows. -/
theorem Client.follows_succeeding (c : Client) (wall : Nat) (base : Record) :
    Follows c.identity (c.succeeding wall base) base := by
  unfold Follows Client.succeeding
  split
  · exact ⟨rfl, rfl⟩
  · rfl

/-- A record that was put in place of one that was read is the one that follows it. -/
theorem entry_of_follows {base : Versioned Record} (hbase : before = some base)
    (hfollows : Follows holder record base.value) :
    Entry holder before (.taken (.ok ⟨true, some record⟩)) record := by
  unfold Follows at hfollows
  split at hfollows
  · rename_i hheld
    exact .renewed hbase hheld hfollows.1 hfollows.2
  · rename_i hheld
    exact .takenOver hbase (by simpa using hheld) hfollows

/-- A call that was served has left the record alone and its attempt without the lock,
or it has made an entry. -/
inductive Booked (holder : String) (before after : Option (Versioned Record))
    (stage : AttemptStage) : Prop
  | nothing (hsame : after = before) (hlost : stage.isWon = false)
      (hintends : stage.Intends holder after)
  | entry {w : Versioned Record} (hafter : after = some w) (hsucceeds : Succeeds before after)
      (hentry : Entry holder before stage w.value)

/-- A call of an attempt to take the lock that is served is booked. -/
theorem Client.Answered.entered {c c' : Client} {now : Nat} {reply : Reply} {attempt : Attempt}
    {next : Next Attempt Outcome} (h : Client.Answered c now reply attempt c' next)
    (hserved : Served before attempt.request after reply)
    (hintends : (AttemptStage.taking attempt).Intends c.identity before) :
    Booked c.identity before after (.ofTaking next) := by
  cases h with
  | vacant hreply => exact .nothing (hserved.found hreply).1 rfl rfl
  | barred hreply hbarred => exact .nothing (hserved.found hreply).1 rfl trivial
  | @free wall base hreply hfree =>
    obtain ⟨hsame, hbase⟩ := hserved.found hreply
    have hfollows := (c.observeIfChanged base now).follows_succeeding wall base.value
    rw [(Client.isSame_observeIfChanged c base now).identity_eq] at hfollows
    refine .nothing hsame rfl ⟨?_, hfollows⟩
    rw [hsame, ← hbase]
    exact seen_self base
  -- a write makes an entry: the first record, or one that follows the record that was seen
  | @written _ desired version hreply hdesired =>
    subst hreply
    cases attempt with
    | looking wall => cases hdesired
    | founding desired' =>
      cases hdesired
      obtain ⟨habsent, hafter, -⟩ := hserved.created_of_written
      exact .entry hafter (hafter ▸ .first habsent) (.founded habsent hintends)
    | claiming base desired' =>
      cases hdesired
      obtain ⟨hseen, hfollows⟩ := hintends
      obtain ⟨hbase, hafter, -⟩ := hserved.replaced_of_written hseen
      exact .entry hafter (hafter ▸ .next hbase) (entry_of_follows hbase hfollows)
  | @failed _ error result hreply hdenied =>
    refine .nothing (hserved.same_of_failed hreply) ?_ trivial
    cases result with
    | error error => rfl
    | ok outcome =>
      simpa [AttemptStage.ofTaking, AttemptStage.isWon, AttemptStage.isGranted,
        AttemptStage.isReleased] using hdenied outcome rfl
  | stray hreply =>
    have hfits := hserved.fits
    rw [hreply] at hfits
    cases hfits

/-- A call of an attempt to give the lock up that is served is booked. -/
theorem Client.AnsweredRelease.entered {c c' : Client} {now : Moment} {reply : Reply}
    {surrender : Surrender} {next : Next Surrender Bool}
    (h : Client.AnsweredRelease c now reply surrender c' next)
    (hserved : Served before surrender.request after reply)
    (hintends : (AttemptStage.leaving surrender).Intends c.identity before) :
    Booked c.identity before after (.ofLeaving next) := by
  cases h with
  | keep hreply =>
    have hsame : after = before := by
      rcases hreply with hreply | ⟨found, hreply, -⟩
      · exact (hserved.found hreply).1
      · exact (hserved.found hreply).1
    exact .nothing hsame rfl trivial
  | @own base hreply hheld =>
    obtain ⟨hsame, hbase⟩ := hserved.found hreply
    refine .nothing hsame rfl ⟨?_, rfl⟩
    rw [hsame, ← hbase]
    exact seen_self base
  -- the write is an entry, and it keeps the count of the record that was seen
  | @vacated base released version hreply =>
    subst hreply
    obtain ⟨hseen, hcount⟩ := hintends
    obtain ⟨hbase, hafter, -⟩ := hserved.replaced_of_written hseen
    exact .entry hafter (hafter ▸ .next hbase) (.vacated hbase hcount)
  | @failed _ error result hreply hkept =>
    refine .nothing (hserved.same_of_failed hreply) ?_ trivial
    cases result with
    | error error => rfl
    | ok done =>
      cases done with
      | false => rfl
      | true => exact absurd rfl hkept
  | stray hreply =>
    have hfits := hserved.fits
    rw [hreply] at hfits
    cases hfits

end Attempts

/-! ### All attempts, and the ledger -/

/-- Whose attempts they are, under which identities, and at which key. -/
structure Roster (ι κ : Type) where
  key : Key
  identity : ι → String
  owner : κ → ι

/-- The identity under which an attempt is made. -/
def Roster.holder {ι κ : Type} (roster : Roster ι κ) (k : κ) : String :=
  roster.identity (roster.owner k)

/-- A change of the record: by a call of which attempt, what was there and what is. -/
structure Change (κ : Type) where
  attempt : κ
  before : Option (Versioned Record)
  after : Option (Versioned Record)

/-- What an observer takes down who compares the record with what it was before a call. -/
def changesBy {κ : Type} (k : κ) (before after : Option (Versioned Record)) : List (Change κ) :=
  if after = before then [] else [⟨k, before, after⟩]

/-- The count of changes of hands that a record shows, zero when there is none. -/
def countIn (record : Option (Versioned Record)) : Nat :=
  (record.map fun stored => stored.value.transitions.toNat).getD 0

/-- A change of hands adds one to the count, up to the largest number. -/
theorem Client.toNat_countTransition (n : UInt32) :
    (Client.countTransition n).toNat + 1 = min (n.toNat + 2) (2 ^ 32) := by
  have hlt : n.toNat < 2 ^ 32 := n.toNat_lt
  unfold Client.countTransition
  split
  · rename_i hmax
    subst hmax
    rfl
  · rename_i hmax
    have hne : n.toNat ≠ 2 ^ 32 - 1 := fun heq => hmax (UInt32.toNat_inj.mp heq)
    have hsucc : (n + 1).toNat = n.toNat + 1 := by
      rw [UInt32.toNat_add]
      show (n.toNat + 1) % 2 ^ 32 = n.toNat + 1
      omega
    omega

/-- What an entry does to the count: a taking adds one, up to the largest number, and
any other change keeps it. -/
theorem Entry.counted {holder : String} {before : Option (Versioned Record)} {stage : AttemptStage}
    {record : Record} {takings : Nat} (h : Entry holder before stage record)
    (habsent : before = none → takings = 0)
    (hbase : ∀ base, before = some base →
      base.value.transitions.toNat + 1 = min takings (2 ^ 32)) :
    record.transitions.toNat + 1
      = min (takings + if stage.isGranted && !before.any fun base => base.value.isHeldBy holder
          then 1 else 0) (2 ^ 32) := by
  cases h with
  | founded hnone hcount =>
    rw [habsent hnone, hcount, hnone]
    rfl
  | @renewed base _ hsome hheld hcount hsince =>
    have hbefore := hbase base hsome
    simpa [hsome, hheld, hcount, AttemptStage.isGranted] using hbefore
  | @takenOver base _ hsome hheld hcount =>
    have hbefore := hbase base hsome
    have hnext := Client.toNat_countTransition base.value.transitions
    simp only [hsome, hheld, hcount, AttemptStage.isGranted, Option.any_some, Bool.not_false,
      Bool.and_self, if_true]
    omega
  | @vacated base _ hsome hcount =>
    have hbefore := hbase base hsome
    simpa [hcount, AttemptStage.isGranted] using hbefore

/-- No entry decreases the count. -/
theorem Entry.countIn_le {holder : String} {before : Option (Versioned Record)}
    {stage : AttemptStage} {record : Record} (h : Entry holder before stage record) :
    countIn before ≤ record.transitions.toNat := by
  cases h with
  | founded hnone hcount =>
    rw [hnone]
    exact Nat.zero_le _
  | renewed hsome hheld hcount hsince =>
    rw [hsome, hcount]
    exact Nat.le_refl _
  | @takenOver base _ hsome hheld hcount =>
    have hlt : base.value.transitions.toNat < 2 ^ 32 := base.value.transitions.toNat_lt
    have hnext := Client.toNat_countTransition base.value.transitions
    rw [hsome, hcount]
    show base.value.transitions.toNat ≤ _
    omega
  | vacated hsome hcount =>
    rw [hsome, hcount]
    exact Nat.le_refl _

/-- Clients at their links, their attempts, the store that they share, and the ledger
of the changes of its record, the first one first. -/
structure Ledger (ι κ : Type) where
  store : Shared
  seats : ι → Seat
  stages : κ → AttemptStage
  changes : List (Change κ)

namespace Ledger

variable {ι κ : Type}

/-- The record that the store holds. -/
def stored (l : Ledger ι κ) (roster : Roster ι κ) : Option (Versioned Record) :=
  l.store.record? roster.key

/-- Whether a change is a taking: its attempt was granted the lock, and has not replaced
a record that names its own holder. -/
def isTaking (l : Ledger ι κ) (roster : Roster ι κ) (c : Change κ) : Bool :=
  (l.stages c.attempt).isGranted
    && !c.before.any fun base => base.value.isHeldBy (roster.holder c.attempt)

/-- How many takings there were. -/
def takings (l : Ledger ι κ) (roster : Roster ι κ) : Nat := l.changes.countP (l.isTaking roster)

section Moves

variable [DecidableEq ι] [DecidableEq κ]

/-- An attempt has begun. -/
def begin (l : Ledger ι κ) (k : κ) (stage : AttemptStage) : Ledger ι κ :=
  { l with stages := Function.update l.stages k stage }

/-- A call of an attempt was answered over its owner's link, and the attempt has come
to a stage. The ledger is kept. -/
def serve (l : Ledger ι κ) (roster : Roster ι κ) (k : κ) (link : Link) (store : Shared)
    (client : Client) (stage : AttemptStage) : Ledger ι κ where
  store := store
  seats := Function.update l.seats (roster.owner k) ⟨client, link⟩
  stages := Function.update l.stages k stage
  changes := l.changes ++ changesBy k (l.stored roster) (store.record? roster.key)

/-- One thing that happens among attempts. -/
inductive Move (roster : Roster ι κ) : Ledger ι κ → Ledger ι κ → Prop
  /-- An attempt to take or renew the lock begins. -/
  | take (l : Ledger ι κ) (k : κ) (wall : Nat) (hidle : l.stages k = .idle) :
      Move roster l (l.begin k (.taking (.looking wall)))
  /-- An attempt to give the lock up begins. -/
  | leave (l : Ledger ι κ) (k : κ) (hidle : l.stages k = .idle) :
      Move roster l (l.begin k (.leaving .looking))
  /-- The next call of a kind by a client will fail. -/
  | fault (l : Ledger ι κ) (i : ι) (call : Call) (error : Error) :
      Move roster l { l with seats := Function.update l.seats i { l.seats i with
        link := (l.seats i).link.expect ⟨call, .fails error⟩ } }
  /-- The call of an attempt to take the lock is answered. -/
  | serveTaking (l : Ledger ι κ) (k : κ) (attempt : Attempt) (now : Nat) (link : Link)
      (store : Shared) (reply : Reply) (hstage : l.stages k = .taking attempt)
      (hserved : (l.seats (roster.owner k)).link.deliver l.store
        (l.seats (roster.owner k)).client.key attempt.request = (link, store, reply)) :
      Move roster l (l.serve roster k link store
        ((l.seats (roster.owner k)).client.answer attempt now reply).1
        (.ofTaking ((l.seats (roster.owner k)).client.answer attempt now reply).2))
  /-- The call of an attempt to give the lock up is answered. -/
  | serveLeaving (l : Ledger ι κ) (k : κ) (surrender : Surrender) (now : Moment) (link : Link)
      (store : Shared) (reply : Reply) (hstage : l.stages k = .leaving surrender)
      (hserved : (l.seats (roster.owner k)).link.deliver l.store
        (l.seats (roster.owner k)).client.key surrender.request = (link, store, reply)) :
      Move roster l (l.serve roster k link store
        ((l.seats (roster.owner k)).client.answerRelease surrender now reply).1
        (.ofLeaving ((l.seats (roster.owner k)).client.answerRelease surrender now reply).2))

/-- What attempts may come to, from a store in memory that has no record of the key. -/
inductive Reachable (roster : Roster ι κ) : Ledger ι κ → Prop
  | start (store : Shared) (seats : ι → Seat) (hmemory : store.IsMemory)
      (habsent : store.record? roster.key = none)
      (hkey : ∀ i, (seats i).client.key = roster.key)
      (hidentity : ∀ i, (seats i).client.identity = roster.identity i)
      (hfails : ∀ i, (seats i).link.OnlyFails) :
      Reachable roster ⟨store, seats, fun _ => .idle, []⟩
  | move {l l' : Ledger ι κ} (h : Reachable roster l) (hmove : Move roster l l') :
      Reachable roster l'

end Moves

/-- The store keeps its records in memory, and the clients are those of the roster, each
at a link where nobody else writes. -/
structure IsSeated (roster : Roster ι κ) (l : Ledger ι κ) : Prop where
  memory : l.store.IsMemory
  fails : ∀ i, (l.seats i).link.OnlyFails
  keyed : ∀ i, (l.seats i).client.key = roster.key
  named : ∀ i, (l.seats i).client.identity = roster.identity i

/-- What is known of attempts and of the ledger at any time. -/
structure IsKept (roster : Roster ι κ) (l : Ledger ι κ) : Prop where
  intends : ∀ k, (l.stages k).Intends (roster.holder k) (l.stored roster)
  entries : ∀ c ∈ l.changes, ∃ w, c.after = some w
    ∧ Entry (roster.holder c.attempt) c.before (l.stages c.attempt) w.value
  nodup : (l.changes.map Change.attempt).Nodup
  entered : ∀ k, (l.stages k).isWon = true → ∃ c ∈ l.changes, c.attempt = k
  bounded : ∀ c ∈ l.changes, countIn c.after ≤ countIn (l.stored roster)
  sorted : l.changes.Pairwise fun c c' => countIn c.after ≤ countIn c'.after
  absent : l.stored roster = none → l.changes = []
  counted : ∀ stored, l.stored roster = some stored →
    stored.value.transitions.toNat + 1 = min (l.takings roster) (2 ^ 32)

variable {roster : Roster ι κ} {l l' : Ledger ι κ} {k : κ} {stage : AttemptStage}

/-- An attempt that has not ended with the lock, and has not given it up, has made no
entry. -/
theorem IsKept.ne_of_mem (h : l.IsKept roster) (hpending : (l.stages k).isWon = false)
    {c : Change κ} (hc : c ∈ l.changes) : c.attempt ≠ k := by
  intro heq
  obtain ⟨w, -, hentry⟩ := h.entries c hc
  rw [heq] at hentry
  rw [hentry.isWon] at hpending
  cases hpending

section Kept

variable [DecidableEq κ]

/-- The attempts that have made entries stay as they ended when another one goes on. -/
theorem IsKept.stages_of_mem (h : l.IsKept roster) (hpending : (l.stages k).isWon = false)
    (hstages : l'.stages = Function.update l.stages k stage) {c : Change κ} (hc : c ∈ l.changes) :
    l'.stages c.attempt = l.stages c.attempt := by
  rw [hstages, Function.update_of_ne (h.ne_of_mem hpending hc)]

/-- So their takings count as before. -/
theorem IsKept.countP_isTaking (h : l.IsKept roster) (hpending : (l.stages k).isWon = false)
    (hstages : l'.stages = Function.update l.stages k stage) :
    l.changes.countP (l'.isTaking roster) = l.takings roster := by
  refine List.countP_congr fun c hc => ?_
  simp only [isTaking, h.stages_of_mem hpending hstages hc]

/-- An attempt that comes to a stage without an entry leaves the ledger as it was. -/
theorem IsKept.stay (h : l.IsKept roster) (hpending : (l.stages k).isWon = false)
    (hstored : l'.stored roster = l.stored roster) (hchanges : l'.changes = l.changes)
    (hstages : l'.stages = Function.update l.stages k stage) (hlost : stage.isWon = false)
    (hintends : stage.Intends (roster.holder k) (l.stored roster)) : l'.IsKept roster := by
  have hself : l'.stages k = stage := by rw [hstages, Function.update_self]
  have hother : ∀ j, j ≠ k → l'.stages j = l.stages j := by
    intro j hj
    rw [hstages, Function.update_of_ne hj]
  -- nothing is entered, and the attempt that moved on was in the ledger neither before nor now
  have htakings : l'.takings roster = l.takings roster := by
    rw [← h.countP_isTaking hpending hstages, takings, hchanges]
  constructor
  · intro j
    rw [hstored]
    by_cases hj : j = k
    · subst hj
      rw [hself]
      exact hintends
    · rw [hother j hj]
      exact h.intends j
  · intro c hc
    rw [hchanges] at hc
    rw [h.stages_of_mem hpending hstages hc]
    exact h.entries c hc
  · rw [hchanges]
    exact h.nodup
  · intro j hwon
    rw [hchanges]
    by_cases hj : j = k
    · subst hj
      rw [hself, hlost] at hwon
      cases hwon
    · rw [hother j hj] at hwon
      exact h.entered j hwon
  · rw [hchanges, hstored]
    exact h.bounded
  · rw [hchanges]
    exact h.sorted
  · rw [hchanges, hstored]
    exact h.absent
  · rw [hstored, htakings]
    exact h.counted

/-- An attempt that makes an entry continues the ledger. -/
theorem IsKept.enter {w : Versioned Record} (h : l.IsKept roster)
    (hpending : (l.stages k).isWon = false) (hstored : l'.stored roster = some w)
    (hchanges : l'.changes = l.changes ++ [⟨k, l.stored roster, some w⟩])
    (hstages : l'.stages = Function.update l.stages k stage)
    (hsucceeds : Succeeds (l.stored roster) (some w))
    (hentry : Entry (roster.holder k) (l.stored roster) stage w.value) : l'.IsKept roster := by
  have hself : l'.stages k = stage := by rw [hstages, Function.update_self]
  have hother : ∀ j, j ≠ k → l'.stages j = l.stages j := by
    intro j hj
    rw [hstages, Function.update_of_ne hj]
  -- the new entry counts no less than the last one, so the ledger stays sorted when it is appended
  have hgrows : countIn (l.stored roster) ≤ countIn (some w) := hentry.countIn_le
  have htakings : l'.takings roster = l.takings roster
      + if stage.isGranted && !(l.stored roster).any fun base =>
          base.value.isHeldBy (roster.holder k) then 1 else 0 := by
    rw [← h.countP_isTaking hpending hstages, takings, hchanges, List.countP_append,
      List.countP_singleton]
    simp only [isTaking, hself]
  constructor
  · intro j
    rw [hstored]
    by_cases hj : j = k
    · -- an attempt that has ended is about to write nothing
      subst hj
      rw [hself]
      cases hentry <;> trivial
    · rw [hother j hj]
      exact (h.intends j).succeeds hsucceeds
  · intro c hc
    rw [hchanges, List.mem_append, List.mem_singleton] at hc
    rcases hc with hc | rfl
    · rw [h.stages_of_mem hpending hstages hc]
      exact h.entries c hc
    · rw [hself]
      exact ⟨w, rfl, hentry⟩
  · rw [hchanges, List.map_append, List.nodup_append]
    refine ⟨h.nodup, List.nodup_singleton _, ?_⟩
    intro j hj j' hj' heq
    obtain ⟨c, hc, rfl⟩ := List.mem_map.mp hj
    exact h.ne_of_mem hpending hc (heq.trans (List.mem_singleton.mp hj'))
  · intro j hwon
    rw [hchanges]
    by_cases hj : j = k
    · exact ⟨_, List.mem_append_right _ List.mem_cons_self, hj.symm⟩
    · rw [hother j hj] at hwon
      obtain ⟨c, hc, hattempt⟩ := h.entered j hwon
      exact ⟨c, List.mem_append_left _ hc, hattempt⟩
  · intro c hc
    rw [hchanges, List.mem_append, List.mem_singleton] at hc
    rw [hstored]
    rcases hc with hc | rfl
    · exact Nat.le_trans (h.bounded c hc) hgrows
    · exact Nat.le_refl _
  · rw [hchanges, List.pairwise_append]
    refine ⟨h.sorted, List.pairwise_singleton _ _, ?_⟩
    intro c hc c' hc'
    rw [List.mem_singleton.mp hc']
    exact Nat.le_trans (h.bounded c hc) hgrows
  · rw [hstored]
    intro hnone
    cases hnone
  · intro stored heq
    obtain rfl : w = stored := Option.some.inj (hstored.symm.trans heq)
    rw [htakings]
    refine hentry.counted (fun hnone => ?_) h.counted
    unfold takings
    rw [h.absent hnone]
    rfl

variable [DecidableEq ι]

/-- A call that was served keeps the ledger when it is booked. -/
theorem IsKept.serve (h : l.IsKept roster) (hpending : (l.stages k).isWon = false) {link : Link}
    {store : Shared} {client : Client}
    (hbooked : Booked (roster.holder k) (l.stored roster) (store.record? roster.key) stage) :
    (l.serve roster k link store client stage).IsKept roster := by
  have hstored : (l.serve roster k link store client stage).stored roster
      = store.record? roster.key := rfl
  cases hbooked with
  | nothing hsame hlost hintends =>
    rw [hsame] at hintends
    refine h.stay hpending (hstored.trans hsame) ?_ rfl hlost hintends
    simp [Ledger.serve, changesBy, hsame]
  | @entry w hafter hsucceeds hentry =>
    have hne := hsucceeds.ne
    rw [hafter] at hsucceeds hne
    refine h.enter hpending (hstored.trans hafter) ?_ rfl hsucceeds hentry
    simp [Ledger.serve, changesBy, hafter, hne]

omit [DecidableEq κ] in
/-- A seat that is taken by the same client, at a link where nobody else writes. -/
theorem IsSeated.reseat (h : l.IsSeated roster) {i : ι} {seat : Seat}
    (hseats : l'.seats = Function.update l.seats i seat) (hmemory : l'.store.IsMemory)
    (hlink : seat.link.OnlyFails) (hclient : (l.seats i).client.IsSame seat.client) :
    l'.IsSeated roster := by
  have hseat : ∀ j, (l'.seats j).link.OnlyFails ∧ (l'.seats j).client.key = roster.key
      ∧ (l'.seats j).client.identity = roster.identity j := by
    intro j
    rw [hseats]
    by_cases hj : j = i
    · subst hj
      rw [Function.update_self]
      exact ⟨hlink, hclient.key_eq.trans (h.keyed j), hclient.identity_eq.trans (h.named j)⟩
    · rw [Function.update_of_ne hj]
      exact ⟨h.fails j, h.keyed j, h.named j⟩
  exact ⟨hmemory, fun j => (hseat j).1, fun j => (hseat j).2.1, fun j => (hseat j).2.2⟩

/-- One thing that happens leaves the clients those of the roster and the ledger kept. -/
theorem Move.kept (hmove : Move roster l l') (hseated : l.IsSeated roster)
    (h : l.IsKept roster) : l'.IsSeated roster ∧ l'.IsKept roster := by
  cases hmove with
  | take k wall hidle =>
    refine ⟨⟨hseated.memory, hseated.fails, hseated.keyed, hseated.named⟩, ?_⟩
    exact h.stay (by rw [hidle]; rfl) rfl rfl rfl rfl trivial
  | leave k hidle =>
    refine ⟨⟨hseated.memory, hseated.fails, hseated.keyed, hseated.named⟩, ?_⟩
    exact h.stay (by rw [hidle]; rfl) rfl rfl rfl rfl trivial
  | fault i call error =>
    refine ⟨hseated.reseat rfl hseated.memory ?_ ⟨rfl, rfl, rfl⟩, ?_⟩
    · exact Link.onlyFails_expect (hseated.fails i) call error
    · exact ⟨h.intends, h.entries, h.nodup, h.entered, h.bounded, h.sorted, h.absent, h.counted⟩
  | serveTaking k attempt now link store reply hstage hserved =>
    have hdelivered := Link.deliver_served (hseated.fails (roster.owner k)) hseated.memory
      (l.seats (roster.owner k)).client.key attempt.request
    rw [hserved, hseated.keyed] at hdelivered
    obtain ⟨hlink, hmemory, hcall⟩ := hdelivered
    have hanswered := Client.answered (l.seats (roster.owner k)).client attempt now reply
    have hintends := h.intends k
    rw [hstage, Roster.holder, ← hseated.named] at hintends
    -- whatever the call has done is booked: nothing, or one entry of this attempt
    have hbooked := hanswered.entered hcall hintends
    rw [hseated.named] at hbooked
    exact ⟨hseated.reseat rfl hmemory hlink hanswered.isSame,
      h.serve (by rw [hstage]; rfl) hbooked⟩
  | serveLeaving k surrender now link store reply hstage hserved =>
    have hdelivered := Link.deliver_served (hseated.fails (roster.owner k)) hseated.memory
      (l.seats (roster.owner k)).client.key surrender.request
    rw [hserved, hseated.keyed] at hdelivered
    obtain ⟨hlink, hmemory, hcall⟩ := hdelivered
    have hanswered := Client.answeredRelease (l.seats (roster.owner k)).client surrender now reply
    have hintends := h.intends k
    rw [hstage, Roster.holder, ← hseated.named] at hintends
    have hbooked := hanswered.entered hcall hintends
    rw [hseated.named] at hbooked
    exact ⟨hseated.reseat rfl hmemory hlink hanswered.isSame,
      h.serve (by rw [hstage]; rfl) hbooked⟩

/-- At every point the clients sit at their links and the ledger agrees with the attempts. -/
theorem Reachable.kept (h : Reachable roster l) : l.IsSeated roster ∧ l.IsKept roster := by
  induction h with
  | start store seats hmemory habsent hkey hidentity hfails =>
    refine ⟨⟨hmemory, hfails, hkey, hidentity⟩, ?_⟩
    refine ⟨fun k => trivial, ?_, List.nodup_nil, ?_, ?_, List.Pairwise.nil, fun _ => rfl, ?_⟩
    · intro c hc
      cases hc
    · intro k hwon
      cases hwon
    · intro c hc
      cases hc
    · intro stored heq
      have hnone : store.record? roster.key = some stored := heq
      rw [habsent] at hnone
      cases hnone
  | move _ hmove ih => exact hmove.kept ih.1 ih.2

/-- Once there is a record, its count of changes is one less than the number of takings,
as long as there are no more of these than the count can hold; then it stays. It never
decreases. A renewal keeps the count and the time of acquisition of the record that it
replaces, and giving up keeps the count. The attempts that have ended with the lock, or
have given it up, have changed the record once each; any other attempt has left it
alone. -/
theorem Reachable.tenures_counted (h : Reachable roster l) :
    (∀ stored, l.stored roster = some stored →
        stored.value.transitions.toNat + 1 = min (l.takings roster) (2 ^ 32))
      ∧ l.changes.Pairwise (fun c c' => countIn c.after ≤ countIn c'.after)
      ∧ (∀ c ∈ l.changes, (l.stages c.attempt).isGranted = true →
        ∀ base, c.before = some base → base.value.isHeldBy (roster.holder c.attempt) = true →
          ∃ w, c.after = some w ∧ w.value.transitions = base.value.transitions
            ∧ w.value.acquireTime = base.value.acquireTime)
      ∧ (∀ c ∈ l.changes, (l.stages c.attempt).isReleased = true →
        ∃ base w, c.before = some base ∧ c.after = some w
          ∧ w.value.transitions = base.value.transitions)
      ∧ (∀ k, (∃ c ∈ l.changes, c.attempt = k)
        ↔ (l.stages k).isGranted = true ∨ (l.stages k).isReleased = true)
      ∧ (l.changes.map Change.attempt).Nodup := by
  obtain ⟨-, hkept⟩ := h.kept
  refine ⟨hkept.counted, hkept.sorted, ?_, ?_, ?_, hkept.nodup⟩
  · intro c hc hgranted base hbase hheld
    obtain ⟨w, hafter, hentry⟩ := hkept.entries c hc
    generalize l.stages c.attempt = stage at hgranted hentry
    cases hentry with
    | founded habsent hcount =>
      rw [habsent] at hbase
      cases hbase
    | renewed hbefore hheld' hcount hsince =>
      obtain rfl := Option.some.inj (hbefore.symm.trans hbase)
      exact ⟨w, hafter, hcount, hsince⟩
    | takenOver hbefore hother hcount =>
      -- the holder has not taken its own record over
      obtain rfl := Option.some.inj (hbefore.symm.trans hbase)
      rw [hheld] at hother
      cases hother
    | vacated hbefore hcount => cases hgranted
  · intro c hc hreleased
    obtain ⟨w, hafter, hentry⟩ := hkept.entries c hc
    generalize l.stages c.attempt = stage at hreleased hentry
    cases hentry with
    | founded habsent hcount => cases hreleased
    | renewed hbefore hheld hcount hsince => cases hreleased
    | takenOver hbefore hother hcount => cases hreleased
    | vacated hbefore hcount => exact ⟨_, w, hbefore, hafter, hcount⟩
  · intro k
    constructor
    · rintro ⟨c, hc, rfl⟩
      obtain ⟨w, -, hentry⟩ := hkept.entries c hc
      simpa [AttemptStage.isWon] using hentry.isWon
    · intro hwon
      exact hkept.entered k (by simpa [AttemptStage.isWon] using hwon)

end Kept

/-! ### Runs that can be computed -/

/-- One thing that happens among attempts, as data. -/
inductive Deed (ι κ : Type)
  | take (k : κ) (wall : Nat)
  | leave (k : κ)
  | fault (i : ι) (call : Call) (error : Error)
  | answer (k : κ) (now : Moment)

section Deeds

variable [DecidableEq ι] [DecidableEq κ]

/-- Lets one thing happen, if it can happen now. -/
def act (roster : Roster ι κ) (l : Ledger ι κ) : Deed ι κ → Option (Ledger ι κ)
  | .take k wall =>
    match l.stages k with
    | .idle => some (l.begin k (.taking (.looking wall)))
    | _ => none
  | .leave k =>
    match l.stages k with
    | .idle => some (l.begin k (.leaving .looking))
    | _ => none
  | .fault i call error => some { l with seats := Function.update l.seats i { l.seats i with
      link := (l.seats i).link.expect ⟨call, .fails error⟩ } }
  | .answer k now =>
    let seat := l.seats (roster.owner k)
    match l.stages k with
    | .taking attempt =>
      let (link, store, reply) := seat.link.deliver l.store seat.client.key attempt.request
      let (client, next) := seat.client.answer attempt now.instant reply
      some (l.serve roster k link store client (.ofTaking next))
    | .leaving surrender =>
      let (link, store, reply) := seat.link.deliver l.store seat.client.key surrender.request
      let (client, next) := seat.client.answerRelease surrender now reply
      some (l.serve roster k link store client (.ofLeaving next))
    | _ => none

/-- Lets one thing happen after another. -/
def play (roster : Roster ι κ) (l : Ledger ι κ) : List (Deed ι κ) → Option (Ledger ι κ)
  | [] => some l
  | deed :: rest => (l.act roster deed).bind (play roster · rest)

/-- A deed that can be done is a move. -/
theorem Move.of_act {deed : Deed ι κ} (h : l.act roster deed = some l') : Move roster l l' := by
  cases deed with
  | take k wall =>
    simp only [act] at h
    split at h <;> cases h
    rename_i hidle
    exact .take l k wall hidle
  | leave k =>
    simp only [act] at h
    split at h <;> cases h
    rename_i hidle
    exact .leave l k hidle
  | fault i call error =>
    cases h
    exact .fault l i call error
  | answer k now =>
    -- the stage of the attempt says which of its calls is answered
    simp only [act] at h
    split at h
    · rename_i attempt hstage
      cases h
      exact .serveTaking l k attempt now.instant _ _ _ hstage rfl
    · rename_i surrender hstage
      cases h
      exact .serveLeaving l k surrender now _ _ _ hstage rfl
    · cases h

/-- What was played out may come to be. -/
theorem Reachable.play (h : Reachable roster l) {deeds : List (Deed ι κ)}
    (hplay : l.play roster deeds = some l') : Reachable roster l' := by
  induction deeds generalizing l with
  | nil =>
    cases hplay
    exact h
  | cons deed rest ih =>
    obtain ⟨next, hact, hrest⟩ := Option.bind_eq_some_iff.mp hplay
    exact ih (.move h (.of_act hact)) hrest

end Deeds

/-- Two clients of a lock; the second one makes the second attempt and the last one. -/
def couple : Roster Bool (Fin 6) where
  key := ⟨"test", "lock"⟩
  identity := fun second => if second then "b" else "a"
  owner := fun k => k == 1 || k == 5

/-- Both clients with healthy links, at an empty store. -/
def opening : Ledger Bool (Fin 6) where
  store := .inMemory
  seats := fun i => ⟨.new ⟨"test", "lock"⟩ (couple.identity i) (.ofSecs 15), .healthy⟩
  stages := fun _ => .idle
  changes := []

/-- The first client takes the lock while the second one finds it held. One renewal
fails, another one lands, and the lock is given up; then both find it free, and the
second client is first. -/
def handover : List (Deed Bool (Fin 6)) :=
  [.take 0 5, .answer 0 ⟨0, 5⟩, .answer 0 ⟨0, 5⟩, .take 1 6, .answer 1 ⟨1, 6⟩,
    .take 2 7, .fault false .update (.unavailable "down"), .answer 2 ⟨2, 7⟩, .answer 2 ⟨2, 7⟩,
    .take 3 8, .answer 3 ⟨3, 8⟩, .answer 3 ⟨3, 8⟩, .leave 4, .answer 4 ⟨4, 9⟩, .answer 4 ⟨4, 9⟩,
    .take 5 10, .answer 5 ⟨5, 10⟩, .answer 5 ⟨5, 10⟩]

/-- The lock was taken twice, so the record counts one change of hands, and the attempts
that were not granted the lock are not in the ledger. -/
theorem tenures_counted_handover :
    ∃ l, opening.play couple handover = some l ∧ Reachable couple l
      ∧ l.takings couple = 2
      ∧ (∃ stored, l.stored couple = some stored ∧ stored.value.transitions.toNat = 1)
      ∧ l.changes.map Change.attempt = [0, 3, 4, 5]
      ∧ (l.stages 1).isGranted = false ∧ (l.stages 2).isGranted = false := by
  have hrun : (opening.play couple handover).any (fun l => decide (l.takings couple = 2)
      && decide (l.changes.map Change.attempt = [0, 3, 4, 5])
      && (l.stored couple).isSome) = true := by
    decide +kernel
  obtain ⟨l, hplay, hl⟩ := (Option.any_eq_true _ _).mp hrun
  simp only [Bool.and_eq_true, decide_eq_true_eq] at hl
  obtain ⟨⟨htakings, hattempts⟩, hsome⟩ := hl
  have hreach : Reachable couple l := by
    refine Reachable.play (.start _ _ ⟨_, rfl⟩ rfl (fun i => rfl) (fun i => rfl) ?_) hplay
    intro i fault hfault
    cases hfault
  obtain ⟨hcount, -, -, -, hwon, -⟩ := hreach.tenures_counted
  obtain ⟨stored, hstored⟩ := Option.isSome_iff_exists.mp hsome
  -- an attempt without an entry was never granted the lock
  have hlost : ∀ k : Fin 6, k ∉ l.changes.map Change.attempt → (l.stages k).isGranted = false := by
    intro k hk
    rw [Bool.eq_false_iff]
    intro hgranted
    obtain ⟨c, hc, hattempt⟩ := (hwon k).mpr (.inl hgranted)
    exact hk (List.mem_map.mpr ⟨c, hc, hattempt⟩)
  refine ⟨l, hplay, hreach, htakings, ⟨stored, hstored, ?_⟩, hattempts, hlost 1 ?_, hlost 2 ?_⟩
  · have hone := hcount stored hstored
    rw [htakings] at hone
    omega
  · rw [hattempts]
    decide
  · rw [hattempts]
    decide

end Ledger

end Tenure.Lease
