import Mathlib.Data.List.Nodup
import Mathlib.Logic.Function.Basic
import Tenure.Proofs.Lease.Attempt
import Tenure.Proofs.Store.Decided

/-!
# `Tenure.Proofs.Lease.Race`: attempts that overlap

Any number of clients of one key, each with any number of attempts to take the
lock or to give it up, at a store in memory that does no harm. The calls of all
attempts come in any order; a call is one step. Beside each attempt stands what
an observer sees of its calls (`LockAttempt`), and beside all of them the writes in
the order in which they were made (`Contest.writes`).

A write has to name the version that the lookup of its attempt has found, and
it puts a higher one in its place. So of the attempts that have found the same
version only the first write lands, and the others find a conflict, which ends
them without the lock and without an error.

* `LockAttempt.IsSound`: what is known of an attempt at each of its stages. Its own
  calls keep it (`IsSound.taking`, `IsSound.leaving`), and so does a write of
  another one (`IsSound.succeeds`).
* `Contest.Reachable.races_settled`: of the attempts that have found the same at
  most one writes; the others end without the lock; the versions that are written
  count up without a gap.
-/

set_option autoImplicit false

namespace Tenure.Lease

open Store

/-! ### One attempt -/

/-- Where an attempt at the lock stands. -/
inductive AttemptStage
  /-- It has not begun. -/
  | idle
  /-- It tries to take or renew the lock, and this call is out. -/
  | taking (attempt : Attempt)
  /-- It gives the lock up, and this call is out. -/
  | leaving (surrender : Surrender)
  /-- An attempt to take or renew the lock has ended. -/
  | taken (result : Except Error Outcome)
  /-- An attempt to give the lock up has ended. -/
  | left (result : Except Error Bool)

/-- Where an attempt to take the lock stands after a step of its client. -/
def AttemptStage.ofTaking : Next Attempt Outcome → AttemptStage
  | .ask attempt => taking attempt
  | .finished result => taken result

/-- Where an attempt to give the lock up stands after a step of its client. -/
def AttemptStage.ofLeaving : Next Surrender Bool → AttemptStage
  | .ask surrender => leaving surrender
  | .finished result => left result

/-- An attempt at the lock, and what an observer has seen of its calls. -/
structure LockAttempt where
  stage : AttemptStage
  /-- What its lookup has found, once that was answered. -/
  saw : Option (Option (Versioned Record))
  /-- What it has written. -/
  wrote : Option (Versioned Record)
  /-- How many of its calls were answered. -/
  answered : Nat

namespace LockAttempt

/-- An attempt that has not begun. -/
def idle : LockAttempt := ⟨.idle, none, none, 0⟩

/-- A call of an attempt was answered, and the attempt has come to a stage. -/
def hear (v : LockAttempt) (request : Request) (reply : Reply)
    (stage : AttemptStage) : LockAttempt where
  stage := stage
  saw := reply.found?.or v.saw
  wrote := (reply.stamp? request).or v.wrote
  answered := v.answered + 1

/-- An attempt that has written has ended with what it wrote, under the version
after the one that it has found. One that has ended without a write has ended
without the lock, and not with an error. An attempt that has not ended has had
one answer at most, so the second one ends it. -/
def IsClean (v : LockAttempt) : Prop :=
  match v.stage with
  | .taken result =>
    (v.wrote = none ∧ ∃ record, result = .ok ⟨false, record⟩)
      ∨ ∃ found w, v.saw = some found ∧ v.wrote = some w ∧ w.version = versionOf found + 1
        ∧ result = .ok ⟨true, some w.value⟩
  | .left result =>
    (v.wrote = none ∧ result = .ok false)
      ∨ ∃ found w wall, v.saw = some (some found) ∧ v.wrote = some w
        ∧ w.version = found.version + 1 ∧ w.value = Client.released wall found.value
        ∧ result = .ok true
  | _ => v.wrote = none ∧ v.answered ≤ 1

/-- What is known of an attempt at each of its stages. -/
def IsSound (current : Option (Versioned Record)) (v : LockAttempt) : Prop :=
  match v.stage with
  | .idle | .taking (.looking _) | .leaving .looking => v.wrote = none ∧ v.answered = 0
  | .taking (.founding _) => v.saw = some none ∧ v.wrote = none ∧ v.answered = 1
  | .taking (.claiming base _) =>
    v.saw = some (some base) ∧ v.wrote = none ∧ v.answered = 1 ∧ Seen current base
  | .leaving (.vacating base released) =>
    v.saw = some (some base) ∧ v.wrote = none ∧ v.answered = 1 ∧ Seen current base
      ∧ ∃ wall, released = Client.released wall base.value
  | .taken _ | .left _ => v.IsClean

variable {v : LockAttempt} {key : Key} {current current' : Option (Versioned Record)}
  {reply : Reply}

/-- An attempt of which all is known has ended as it should. -/
theorem IsSound.isClean (h : v.IsSound current) : v.IsClean := by
  unfold IsSound at h
  unfold IsClean
  split at h <;> rename_i hstage <;> simp only [hstage]
  · exact ⟨h.1, by omega⟩
  · exact ⟨h.1, by omega⟩
  · exact ⟨h.1, by omega⟩
  · exact ⟨h.2.1, by omega⟩
  · exact ⟨h.2.1, by omega⟩
  · exact ⟨h.2.1, by omega⟩
  · simpa only [IsClean, hstage] using h
  · simpa only [IsClean, hstage] using h

/-- A write of another attempt leaves this one sound. -/
theorem IsSound.succeeds (h : v.IsSound current) (hs : Succeeds current current') :
    v.IsSound current' := by
  unfold IsSound at h ⊢
  split at h
  · exact h
  · exact h
  · exact h
  · exact h
  · -- the record that it has found has been replaced, and stays one that was seen
    exact ⟨h.1, h.2.1, h.2.2.1, (h.2.2.2.succeeds hs).1⟩
  · exact ⟨h.1, h.2.1, h.2.2.1, (h.2.2.2.1.succeeds hs).1, h.2.2.2.2⟩
  · exact h
  · exact h

/-- A call of an attempt to take the lock keeps it sound. -/
theorem IsSound.taking (h : v.IsSound current) {attempt : Attempt}
    (hstage : v.stage = .taking attempt) (hd : Decided key current attempt.request current' reply)
    (c : Client) (now : Nat) :
    (v.hear attempt.request reply (.ofTaking (c.answer attempt now reply).2)).IsSound current' := by
  simp only [IsSound, hstage] at h
  cases attempt with
  | looking wall =>
    obtain ⟨hwrote, hanswered⟩ := h
    cases hd with
    | read =>
      cases current with
      | none =>
        show some none = some none ∧ v.wrote = none ∧ v.answered + 1 = 1
        exact ⟨rfl, hwrote, by omega⟩
      | some found =>
        simp only [Client.answer]
        cases hbarred : (c.observeIfChanged found now).isBarred found.value now with
        | true =>
          rw [if_pos rfl]
          exact .inl ⟨hwrote, _, rfl⟩
        | false =>
          rw [if_neg (by decide)]
          show some (some found) = some (some found) ∧ v.wrote = none ∧ v.answered + 1 = 1
            ∧ Seen (some found) found
          exact ⟨rfl, hwrote, by omega, seen_self found⟩
  | founding desired =>
    obtain ⟨hsaw, hwrote, hanswered⟩ := h
    cases hd with
    | created habsent => exact .inr ⟨none, _, hsaw, rfl, rfl, rfl⟩
    | taken hcurrent => exact .inl ⟨hwrote, none, rfl⟩
  | claiming base desired =>
    obtain ⟨hsaw, hwrote, hanswered, hseen⟩ := h
    cases hd with
    | updated hcurrent hversion => exact .inr ⟨some base, _, hsaw, rfl, rfl, rfl⟩
    | moved hcurrent hne => exact .inl ⟨hwrote, some base.value, rfl⟩
    | missing habsent =>
      -- a record that was found is never removed
      obtain ⟨latest, hlatest, -⟩ := hseen
      rw [habsent] at hlatest
      cases hlatest

/-- A call of an attempt to give the lock up keeps it sound. -/
theorem IsSound.leaving (h : v.IsSound current) {surrender : Surrender}
    (hstage : v.stage = .leaving surrender)
    (hd : Decided key current surrender.request current' reply) (c : Client) (now : Moment) :
    (v.hear surrender.request reply
      (.ofLeaving (c.answerRelease surrender now reply).2)).IsSound current' := by
  simp only [IsSound, hstage] at h
  cases surrender with
  | looking =>
    obtain ⟨hwrote, hanswered⟩ := h
    cases hd with
    | read =>
      cases current with
      | none => exact .inl ⟨hwrote, rfl⟩
      | some found =>
        simp only [Client.answerRelease]
        cases hheld : found.value.isHeldBy c.identity with
        | true =>
          rw [if_pos rfl]
          show some (some found) = some (some found) ∧ v.wrote = none ∧ v.answered + 1 = 1
            ∧ Seen (some found) found ∧ ∃ wall, _ = Client.released wall found.value
          exact ⟨rfl, hwrote, by omega, seen_self found, now.wall, rfl⟩
        | false =>
          rw [if_neg (by decide)]
          exact .inl ⟨hwrote, rfl⟩
  | vacating base released =>
    obtain ⟨hsaw, hwrote, hanswered, hseen, wall, hreleased⟩ := h
    cases hd with
    -- the record that was seen is still there and is replaced, or another write was faster
    | updated hcurrent hversion => exact .inr ⟨base, _, wall, hsaw, rfl, rfl, hreleased, rfl⟩
    | moved hcurrent hne => exact .inl ⟨hwrote, rfl⟩
    | missing habsent =>
      obtain ⟨latest, hlatest, -⟩ := hseen
      rw [habsent] at hlatest
      cases hlatest

/-- What an attempt wrote comes after what it has found. -/
theorem IsClean.version_eq (h : v.IsClean) {w : Versioned Record} (hwrote : v.wrote = some w) :
    ∃ found, v.saw = some found ∧ w.version = versionOf found + 1 := by
  unfold IsClean at h
  split at h
  · rcases h with ⟨hnone, -⟩ | ⟨found, w', hsaw, hw, hversion, -⟩
    · rw [hnone] at hwrote
      cases hwrote
    · obtain rfl : w' = w := Option.some.inj (hw.symm.trans hwrote)
      exact ⟨found, hsaw, hversion⟩
  · rcases h with ⟨hnone, -⟩ | ⟨found, w', wall, hsaw, hw, hversion, -⟩
    · rw [hnone] at hwrote
      cases hwrote
    · obtain rfl : w' = w := Option.some.inj (hw.symm.trans hwrote)
      exact ⟨some found, hsaw, hversion⟩
  · rw [h.1] at hwrote
    cases hwrote

end LockAttempt

/-! ### All attempts -/

/-- Clients, their attempts, and the store that they share. -/
structure Contest (ι κ : Type) where
  memory : Memory
  clients : ι → Client
  attempts : κ → LockAttempt
  /-- What was written, by which attempt, the first write first. -/
  writes : List (κ × Versioned Record)

namespace Contest

variable {ι κ : Type}

/-- An attempt has begun. -/
def begin [DecidableEq κ] (c : Contest ι κ) (k : κ) (stage : AttemptStage) : Contest ι κ where
  memory := c.memory
  clients := c.clients
  attempts := Function.update c.attempts k { c.attempts k with stage := stage }
  writes := c.writes

/-- A call of an attempt was answered: the store, the client and the attempt have
changed, and a write is taken down. -/
def serve [DecidableEq ι] [DecidableEq κ] (c : Contest ι κ) (i : ι) (k : κ)
    (request : Request) (served : Memory × Reply)
    (client : Client) (stage : AttemptStage) : Contest ι κ where
  memory := served.1
  clients := Function.update c.clients i client
  attempts := Function.update c.attempts k ((c.attempts k).hear request served.2 stage)
  writes := c.writes ++ ((served.2.stamp? request).map fun w => (k, w)).toList

/-- One thing that happens among attempts, each of which belongs to a client. -/
inductive Move [DecidableEq ι] [DecidableEq κ] (owner : κ → ι) : Contest ι κ → Contest ι κ → Prop
  /-- An attempt to take or renew the lock begins. -/
  | take (c : Contest ι κ) (k : κ) (wall : Nat) (hidle : (c.attempts k).stage = .idle) :
      Move owner c (c.begin k (.taking (.looking wall)))
  /-- An attempt to give the lock up begins. -/
  | leave (c : Contest ι κ) (k : κ) (hidle : (c.attempts k).stage = .idle) :
      Move owner c (c.begin k (.leaving .looking))
  /-- The store answers the call of an attempt to take the lock. -/
  | serveTaking (c : Contest ι κ) (k : κ) (attempt : Attempt) (now : Nat)
      (served : Memory × Reply) (hstage : (c.attempts k).stage = .taking attempt)
      (hserved : c.memory.answer (c.clients (owner k)).key attempt.request = served) :
      Move owner c (c.serve (owner k) k attempt.request served
        ((c.clients (owner k)).answer attempt now served.2).1
        (.ofTaking ((c.clients (owner k)).answer attempt now served.2).2))
  /-- The store answers the call of an attempt to give the lock up. -/
  | serveLeaving (c : Contest ι κ) (k : κ) (surrender : Surrender) (now : Moment)
      (served : Memory × Reply) (hstage : (c.attempts k).stage = .leaving surrender)
      (hserved : c.memory.answer (c.clients (owner k)).key surrender.request = served) :
      Move owner c (c.serve (owner k) k surrender.request served
        ((c.clients (owner k)).answerRelease surrender now served.2).1
        (.ofLeaving ((c.clients (owner k)).answerRelease surrender now served.2).2))

/-- What attempts of clients of a key may come to, at a store with any records. -/
inductive Reachable [DecidableEq ι] [DecidableEq κ] (key : Key) (owner : κ → ι)
    (start : Memory) : Contest ι κ → Prop
  | start (clients : ι → Client) (hkey : ∀ i, (clients i).key = key) :
      Reachable key owner start ⟨start, clients, fun _ => .idle, []⟩
  | move {c c' : Contest ι κ} (h : Reachable key owner start c) (hmove : Move owner c c') :
      Reachable key owner start c'

/-- Something to do in a contest: an attempt begins, or its call is answered. -/
inductive Deed (κ : Type)
  | take (k : κ) (wall : Nat)
  | leave (k : κ)
  | answer (k : κ) (now : Moment)

section

variable [DecidableEq ι] [DecidableEq κ]

/-- Does it, if it can be done. -/
def act (owner : κ → ι) (c : Contest ι κ) : Deed κ → Option (Contest ι κ)
  | .take k wall =>
    match (c.attempts k).stage with
    | .idle => some (c.begin k (.taking (.looking wall)))
    | _ => none
  | .leave k =>
    match (c.attempts k).stage with
    | .idle => some (c.begin k (.leaving .looking))
    | _ => none
  | .answer k now =>
    let client := c.clients (owner k)
    match (c.attempts k).stage with
    | .taking attempt =>
      let served := c.memory.answer client.key attempt.request
      let answer := client.answer attempt now.instant served.2
      some (c.serve (owner k) k attempt.request served answer.1 (.ofTaking answer.2))
    | .leaving surrender =>
      let served := c.memory.answer client.key surrender.request
      let answer := client.answerRelease surrender now served.2
      some (c.serve (owner k) k surrender.request served answer.1 (.ofLeaving answer.2))
    | _ => none

/-- Does one thing after the other, if each can be done. -/
def play (owner : κ → ι) (c : Contest ι κ) : List (Deed κ) → Option (Contest ι κ)
  | [] => some c
  | deed :: deeds => (c.act owner deed).bind fun c' => c'.play owner deeds

/-- A deed that can be done is a move. -/
theorem Move.of_act {owner : κ → ι} {c c' : Contest ι κ} {deed : Deed κ}
    (hact : c.act owner deed = some c') : Move owner c c' := by
  cases deed with
  | take k wall =>
    simp only [act] at hact
    split at hact
    · rename_i hidle
      cases hact
      exact .take c k wall hidle
    · cases hact
  | leave k =>
    simp only [act] at hact
    split at hact
    · rename_i hidle
      cases hact
      exact .leave c k hidle
    · cases hact
  -- the stage of the attempt says which of its calls is answered
  | answer k now =>
    simp only [act] at hact
    split at hact
    · rename_i attempt hstage
      cases hact
      exact .serveTaking c k attempt now.instant _ hstage rfl
    · rename_i surrender hstage
      cases hact
      exact .serveLeaving c k surrender now _ hstage rfl
    · cases hact

/-- What was played out may come to be. -/
theorem Reachable.play {key : Key} {owner : κ → ι} {start : Memory} {c c' : Contest ι κ}
    (h : Reachable key owner start c) {deeds : List (Deed κ)}
    (hplay : c.play owner deeds = some c') : Reachable key owner start c' := by
  induction deeds generalizing c with
  | nil =>
    cases hplay
    exact h
  | cons deed deeds ih =>
    simp only [Contest.play, Option.bind_eq_some_iff] at hplay
    obtain ⟨next, hact, hrest⟩ := hplay
    exact ih (h.move (.of_act hact)) hrest

end

/-- What is known of clients, attempts and writes at any time. -/
structure IsSound (key : Key) (start : Memory) (c : Contest ι κ) : Prop where
  keyed : ∀ i, (c.clients i).key = key
  attempts : ∀ k, (c.attempts k).IsSound (c.memory.get key)
  writes : ∀ k w, (k, w) ∈ c.writes ↔ (c.attempts k).wrote = some w
  versions : c.writes.map (·.2.version)
    = List.range' (versionOf (start.get key) + 1) c.writes.length
  stored : c.memory.get key = (c.writes.getLast?.map (·.2)).or (start.get key)
  others : ∀ other, other ≠ key → c.memory.get other = start.get other

variable {key : Key} {owner : κ → ι} {start : Memory} {c c' : Contest ι κ}

/-- The version in the store tells how many writes there were. -/
theorem IsSound.versionOf_eq (h : c.IsSound key start) :
    versionOf (c.memory.get key) = versionOf (start.get key) + c.writes.length := by
  rw [h.stored]
  cases hlast : c.writes.getLast? with
  | none =>
    have hnil : c.writes = [] := List.getLast?_eq_none_iff.mp hlast
    simp [hnil]
  | some last =>
    -- the version of the last write is the last of those counted
    have hversion : (c.writes.map (·.2.version)).getLast? = some last.2.version := by
      rw [List.getLast?_map, hlast]
      rfl
    rw [h.versions, List.getLast?_range'] at hversion
    split at hversion
    · cases hversion
    · rename_i hpos
      simp only [Option.some.injEq] at hversion
      show last.2.version = _
      omega

/-- Different writes have different versions. -/
theorem IsSound.eq_of_version (h : c.IsSound key start) {p q : κ × Versioned Record}
    (hp : p ∈ c.writes) (hq : q ∈ c.writes) (hversion : p.2.version = q.2.version) : p = q := by
  have hnodup : (c.writes.map (·.2.version)).Nodup := by
    rw [h.versions]
    exact List.nodup_range'
  exact List.inj_on_of_nodup_map hnodup hp hq hversion

variable [DecidableEq κ]

/-- An attempt that begins has found and written nothing. -/
theorem IsSound.begin (h : c.IsSound key start) {k : κ} (hidle : (c.attempts k).stage = .idle)
    {stage : AttemptStage}
    (hstage : stage = .leaving .looking ∨ ∃ wall, stage = .taking (.looking wall)) :
    (c.begin k stage).IsSound key start := by
  have hsound := h.attempts k
  simp only [LockAttempt.IsSound, hidle] at hsound
  refine ⟨h.keyed, fun j => ?_, fun j w => ?_, h.versions, h.stored, h.others⟩
  · simp only [Contest.begin]
    -- what has begun has seen and written nothing, like an attempt that is idle
    by_cases hj : j = k
    · subst hj
      rw [Function.update_self]
      rcases hstage with rfl | ⟨wall, rfl⟩
      · exact hsound
      · exact hsound
    · rw [Function.update_of_ne hj]
      exact h.attempts j
  · simp only [Contest.begin]
    rw [h.writes j w]
    by_cases hj : j = k
    · subst hj
      rw [Function.update_self]
    · rw [Function.update_of_ne hj]

variable [DecidableEq ι]

/-- The answer to a call keeps everything sound when it keeps its attempt so. -/
theorem IsSound.serve (h : c.IsSound key start) {i : ι} {k : κ} {request : Request}
    {served : Memory × Reply} {client : Client} {stage : AttemptStage}
    (hserved : c.memory.answer key request = served) (hclient : client.key = key)
    (hwrote : (c.attempts k).wrote = none)
    (hattempt : ((c.attempts k).hear request served.2 stage).IsSound (served.1.get key)) :
    (c.serve i k request served client stage).IsSound key start := by
  subst hserved
  have hwritten := (c.memory.answer_decided key request).written
  have hcount := h.versionOf_eq
  constructor
  · intro j
    simp only [Contest.serve]
    by_cases hj : j = i
    · subst hj
      rw [Function.update_self]
      exact hclient
    · rw [Function.update_of_ne hj]
      exact h.keyed j
  · intro j
    simp only [Contest.serve]
    by_cases hj : j = k
    · subst hj
      rw [Function.update_self]
      exact hattempt
    · rw [Function.update_of_ne hj]
      -- what the other attempts have seen is the current record still, or an older one now
      rcases hwritten with ⟨-, hsame⟩ | ⟨w, -, -, -, hsucceeds⟩
      · rw [hsame]
        exact h.attempts j
      · exact (h.attempts j).succeeds hsucceeds
  · intro j w
    simp only [Contest.serve, List.mem_append, Option.mem_toList, Option.map_eq_some_iff]
    by_cases hj : j = k
    · subst hj
      rw [Function.update_self, h.writes j w, hwrote]
      simp [LockAttempt.hear, hwrote]
    · rw [Function.update_of_ne hj, h.writes j w]
      simp [Ne.symm hj]
  · simp only [Contest.serve]
    rcases hwritten with ⟨hnone, -⟩ | ⟨w, hstamp, -, hversion, -⟩
    · rw [hnone]
      simpa using h.versions
    · rw [hstamp]
      simp only [Option.map_some, Option.toList_some, List.map_append, List.map_cons, List.map_nil,
        List.length_append, List.length_singleton, h.versions, List.range'_concat]
      congr 2
      omega
  · simp only [Contest.serve]
    rcases hwritten with ⟨hnone, hsame⟩ | ⟨w, hstamp, hafter, -, -⟩
    · rw [hnone, hsame]
      simpa using h.stored
    · rw [hstamp, hafter]
      simp
  · intro other hother
    rw [← h.others other hother]
    exact c.memory.answer_get_other key other request hother

/-- One thing that happens keeps everything sound. -/
theorem IsSound.move (h : c.IsSound key start) (hmove : Move owner c c') :
    c'.IsSound key start := by
  cases hmove with
  | take k wall hidle => exact h.begin hidle (.inr ⟨wall, rfl⟩)
  | leave k hidle => exact h.begin hidle (.inl rfl)
  | serveTaking k attempt now served hstage hserved =>
    have hkey := h.keyed (owner k)
    have hsame := (Client.answered (c.clients (owner k)) attempt now served.2).isSame
    have hsound := h.attempts k
    -- an attempt with a call out has not written, as its write would have ended it
    have hwrote : (c.attempts k).wrote = none := by
      have hclean := hsound.isClean
      simp only [LockAttempt.IsClean, hstage] at hclean
      exact hclean.1
    rw [hkey] at hserved
    refine h.serve hserved (hsame.key_eq.trans hkey) hwrote ?_
    rw [← hserved]
    exact hsound.taking hstage (c.memory.answer_decided key attempt.request) _ now
  | serveLeaving k surrender now served hstage hserved =>
    have hkey := h.keyed (owner k)
    have hsame := (Client.answeredRelease (c.clients (owner k)) surrender now served.2).isSame
    have hsound := h.attempts k
    have hwrote : (c.attempts k).wrote = none := by
      have hclean := hsound.isClean
      simp only [LockAttempt.IsClean, hstage] at hclean
      exact hclean.1
    rw [hkey] at hserved
    refine h.serve hserved (hsame.key_eq.trans hkey) hwrote ?_
    rw [← hserved]
    exact hsound.leaving hstage (c.memory.answer_decided key surrender.request) _ now

/-- At every point of a contest what is known of clients, attempts and writes is true. -/
theorem Reachable.isSound (h : Reachable key owner start c) : c.IsSound key start := by
  induction h with
  | start clients hkey =>
    refine ⟨hkey, fun k => ⟨rfl, rfl⟩, fun k w => ?_, rfl, rfl, fun _ _ => rfl⟩
    simp [LockAttempt.idle]
  | move _ hmove ih => exact ih.move hmove

/-- Of the attempts that have found the same version, or no record, at most one
writes; whoever has written has ended with what it wrote, and whoever has ended
without a write has ended without the lock and without an error. The versions
that are written count up from the first one without a gap, each by the attempt
that it is due to; the store holds the last of them, and other keys are left
alone. -/
theorem Reachable.races_settled (h : Reachable key owner start c) :
    (∀ j k found found', (c.attempts j).saw = some found → (c.attempts k).saw = some found' →
        found.map Versioned.version = found'.map Versioned.version →
        (c.attempts j).wrote ≠ none → (c.attempts k).wrote ≠ none → j = k)
      ∧ (∀ k, (c.attempts k).IsClean)
      ∧ c.writes.map (·.2.version)
        = List.range' (versionOf (start.get key) + 1) c.writes.length
      ∧ (∀ k w, (k, w) ∈ c.writes ↔ (c.attempts k).wrote = some w)
      ∧ c.memory.get key = (c.writes.getLast?.map (·.2)).or (start.get key)
      ∧ ∀ other, other ≠ key → c.memory.get other = start.get other := by
  have hsound := h.isSound
  refine ⟨?_, fun k => (hsound.attempts k).isClean, hsound.versions, hsound.writes, hsound.stored,
    hsound.others⟩
  intro j k found found' hj hk hsame hwrote hwrote'
  obtain ⟨w, hw⟩ := Option.ne_none_iff_exists'.mp hwrote
  obtain ⟨w', hw'⟩ := Option.ne_none_iff_exists'.mp hwrote'
  -- both writes follow the same version, so they are the same write
  have hversionOf : versionOf found = versionOf found' := by
    cases found <;> cases found' <;> simp_all [versionOf]
  have hversion : w.version = w'.version := by
    obtain ⟨f, hf, hfollows⟩ := (hsound.attempts j).isClean.version_eq hw
    obtain ⟨f', hf', hfollows'⟩ := (hsound.attempts k).isClean.version_eq hw'
    obtain rfl : f = found := Option.some.inj (hf.symm.trans hj)
    obtain rfl : f' = found' := Option.some.inj (hf'.symm.trans hk)
    omega
  have heq := hsound.eq_of_version ((hsound.writes j w).mpr hw) ((hsound.writes k w').mpr hw')
    hversion
  exact congrArg Prod.fst heq

/-- Two clients of a lock. Each makes one attempt to take it, and the first one
makes another attempt to renew it and one to give it up. -/
def rivals : Bool → Client
  | false => .new ⟨"test", "lock"⟩ "a" (.ofSecs 15)
  | true => .new ⟨"test", "lock"⟩ "b" (.ofSecs 15)

/-- Whose attempts they are. -/
def ownerOf (k : Fin 4) : Bool := k == 1

/-- Both clients find that there is no record and create the first one. Then the
first client finds its own record twice, gives the lock up and renews it. -/
def crossing : List (Deed (Fin 4)) :=
  [.take 0 5, .take 1 5, .answer 0 ⟨0, 5⟩, .answer 1 ⟨0, 5⟩, .answer 0 ⟨1, 5⟩, .answer 1 ⟨1, 5⟩,
    .take 2 6, .leave 3, .answer 2 ⟨2, 6⟩, .answer 3 ⟨2, 6⟩, .answer 3 ⟨3, 6⟩, .answer 2 ⟨3, 6⟩]

/-- In the contest that this shows, both creations found nothing and one has written; a renewal and
a release found the same version and one has written. -/
theorem races_settled_crossing :
    ∃ c, Reachable ⟨"test", "lock"⟩ ownerOf .empty c
      ∧ (c.attempts 0).saw = some none ∧ (c.attempts 1).saw = some none
      ∧ (c.attempts 0).wrote ≠ none ∧ (c.attempts 1).wrote = none
      ∧ (c.attempts 2).saw = (c.attempts 3).saw
      ∧ (c.attempts 3).wrote ≠ none ∧ (c.attempts 2).wrote = none
      ∧ c.writes.map (·.2.version) = [1, 2] := by
  -- the run is computed; who has lost follows from the theorem
  have hrun : ((⟨.empty, rivals, fun _ => .idle, []⟩ : Contest Bool (Fin 4)).play ownerOf
      crossing).any (fun c => decide ((c.attempts 0).saw = some none)
        && decide ((c.attempts 1).saw = some none) && decide ((c.attempts 0).wrote ≠ none)
        && decide ((c.attempts 2).saw = (c.attempts 3).saw)
        && (c.attempts 2).saw.any Option.isSome
        && decide ((c.attempts 3).wrote ≠ none) && decide (c.writes.length = 2)) = true := by
    decide +kernel
  obtain ⟨c, hplay, hc⟩ := (Option.any_eq_true _ _).mp hrun
  simp only [Bool.and_eq_true, decide_eq_true_eq] at hc
  obtain ⟨⟨⟨⟨⟨⟨h0, h1⟩, hwrote0⟩, h23⟩, hsome⟩, hwrote3⟩, hlength⟩ := hc
  have hreach : Reachable ⟨"test", "lock"⟩ ownerOf .empty c :=
    (Reachable.start rivals (by intro i; cases i <;> rfl)).play hplay
  obtain ⟨hone, -, hversions, -⟩ := hreach.races_settled
  obtain ⟨found, hfound, -⟩ := (Option.any_eq_true _ _).mp hsome
  refine ⟨c, hreach, h0, h1, hwrote0, ?_, h23, hwrote3, ?_, ?_⟩
  · -- two attempts that have written would be the same one
    by_contra hwrote1
    exact absurd (hone 0 1 none none h0 h1 rfl hwrote0 hwrote1) (by decide)
  · by_contra hwrote2
    exact absurd (hone 2 3 found found hfound (h23 ▸ hfound) rfl hwrote2 hwrote3) (by decide)
  · rw [hversions, hlength]
    rfl

end Contest

end Tenure.Lease
