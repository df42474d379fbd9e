import Mathlib.Data.List.Chain
import Tenure.Proofs.Status.Publication

/-!
# `Tenure.Proofs.Status.Transition`: the dates of conditions

Each condition of a document carries the time of its last transition. A session takes one
time for all four conditions, when it first publishes a document in a phase, and keeps it
for the documents that follow in that phase (`Dated`). So between two documents of one
phase every condition keeps its date. When the phase changes every condition is dated
anew, also one that has the same status as before: an operator is never degraded and
always upgradeable, but both conditions get the time at which the phase was entered.

* `Reachable.dated`: how consecutive documents are dated.
* `Reachable.keepsDate_iff`: when a condition whose status stays as it is keeps its date.
-/

set_option autoImplicit false

namespace Tenure.Status

/-! ### Conditions by their type -/

/-- Whether a condition has another status in another phase. An operator is available while
it runs, and progresses while it starts. -/
def ConditionType.turns (type : ConditionType) (earlier later : Phase) : Bool :=
  match type with
  | .available => (earlier == .running) != (later == .running)
  | .progressing => (earlier == .starting) != (later == .starting)
  | .degraded | .upgradeable => false

/-- A condition that has the same status in both documents has the same date in both. -/
def KeepsDate (type : ConditionType) (earlier later : Document) : Prop :=
  ∀ before ∈ earlier.condition? type, ∀ after ∈ later.condition? type,
    before.status = after.status → before.since = after.since

/-- The condition of a type that is published in a phase. -/
theorem exists_condition {document : Document} {since : UInt64}
    (h : document.conditions = document.phase.conditions since) (type : ConditionType) :
    ∃ condition, document.condition? type = some condition ∧ condition.since = since
      ∧ condition.status = match type with
        | .available => if document.phase = .running then .true else .false
        | .progressing => if document.phase = .starting then .true else .false
        | .degraded => .false
        | .upgradeable => .true := by
  unfold Document.condition?
  rw [h]
  cases document.phase <;> cases type <;> exact ⟨_, rfl, rfl, rfl⟩

/-- A condition that stays as it is keeps its date when all conditions have the same. -/
theorem keepsDate_iff_since {earlier later : Document} {since since' : UInt64}
    (hearlier : earlier.conditions = earlier.phase.conditions since)
    (hlater : later.conditions = later.phase.conditions since') (type : ConditionType) :
    KeepsDate type earlier later
      ↔ type.turns earlier.phase later.phase = true ∨ since = since' := by
  obtain ⟨before, hbefore, rfl, hfirst⟩ := exists_condition hearlier type
  obtain ⟨after, hafter, rfl, hsecond⟩ := exists_condition hlater type
  have hkeeps : KeepsDate type earlier later
      ↔ (before.status = after.status → before.since = after.since) := by
    simp [KeepsDate, hbefore, hafter]
  have hturns : before.status = after.status
      ↔ type.turns earlier.phase later.phase = false := by
    rw [hfirst, hsecond]
    cases type <;> cases earlier.phase <;> cases later.phase <;> decide
  rw [hkeeps, hturns]
  cases type.turns earlier.phase later.phase <;> simp

namespace Broadcast

variable {profile : Profile} {b b' : Broadcast} {deed : Deed}

/-! ### How documents are dated -/

/-- Two documents that follow each other: in the same phase the later one has the date of the
earlier one, in another phase it has the time at which it is made. -/
def Dated (earlier later : Issue) : Prop :=
  ∃ since since' : UInt64,
    earlier.document.conditions = earlier.document.phase.conditions since
    ∧ later.document.conditions = later.document.phase.conditions since'
    ∧ since' = if earlier.document.phase = later.document.phase then since
      else Session.wallTime later.made

/-- The last phase that a waiting session has told of. -/
theorem phase_of_opening {earlier : Issue} {ticks : Nat} (hlast : earlier ∈ b.issued.getLast?)
    (hphases : b.phases = opening ticks) :
    earlier.document.phase = if ticks = 0 then .starting else .running := by
  have hphase : b.phases.getLast? = some earlier.document.phase := by
    rw [phases, List.getLast?_map, hlast]
    rfl
  rw [hphases] at hphase
  cases ticks with
  | zero => exact (Option.some.inj hphase).symm
  | succ ticks =>
    rw [opening_succ, List.getLast?_concat] at hphase
    exact (Option.some.inj hphase).symm

/-- A document that a session goes on with is dated after the last one. -/
theorem Kept.dated_follow (h : b.Kept profile) {s' : Session} {now : Moment} {notices : Bool}
    {document : Document} (hissue : b.session.Issues now notices document s') {earlier : Issue}
    (hlast : earlier ∈ b.issued.getLast?) : Dated earlier ⟨document, now⟩ := by
  obtain ⟨since, hdocument, hsince⟩ := h.wrote earlier (List.mem_of_getLast? hlast)
  have hearlier : earlier.document.conditions = earlier.document.phase.conditions since :=
    congrArg Document.conditions hdocument
  have htold := h.told
  generalize hphases : b.phases = phases at htold
  cases hissue with
  | opening hstage =>
    -- there is no document before the first one
    rw [hstage] at htold
    cases htold
    rw [Broadcast.phases, List.map_eq_nil_iff] at hphases
    simp [hphases] at hlast
  | telling hstage =>
    rw [hstage] at htold
    cases htold with
    | waiting ticks =>
      have hphase := phase_of_opening hlast hphases
      refine ⟨since, _, hearlier, rfl, ?_⟩
      cases ticks with
      | zero =>
        have hfirst : b.session.runningSince = none := by
          by_contra hsome
          have hrunning := h.noted (Option.isSome_iff_ne_none.mpr hsome)
          rw [hphases] at hrunning
          simp [Broadcast.opening] at hrunning
        simp [hfirst, hphase, Profile.document]
      | succ ticks => simp [hsince hphase, hphase, Profile.document]
  | closing hstage hnotices =>
    rw [hstage] at htold
    cases htold with
    | waiting ticks =>
      have hphase := phase_of_opening hlast hphases
      refine ⟨since, _, hearlier, rfl, ?_⟩
      cases ticks <;> simp [hphase, Profile.document]

/-- A document is handed to the sink only when the session goes on with it. -/
theorem issued_of_act (hact : b.act deed = some b') : b'.issued = b.issued
    ∨ ∃ now notices document s', b.session.Issues now notices document s'
      ∧ b'.issued = b.issued ++ [⟨document, now⟩] := by
  cases deed with
  | cancel =>
    cases hact
    exact .inl rfl
  | advance wall notices =>
    simp only [Broadcast.act] at hact
    split at hact
    · cases hact
    · -- a session issues a document only when it goes on by itself
      obtain ⟨s', hadvance, rfl⟩ := Option.map_eq_some_iff.mp hact
      obtain ⟨document, hissue⟩ := Session.issues_of_advance hadvance
      exact .inr ⟨_, _, document, s', hissue, issued_follow hissue⟩
  | returns succeeds =>
    obtain ⟨document, -, rfl⟩ := Option.map_eq_some_iff.mp hact
    exact .inl rfl
  | pass later =>
    simp only [Broadcast.act] at hact
    split at hact <;> cases hact
    exact .inl rfl

/-- Consecutive documents of a session are dated one after the other. -/
theorem Reachable.dated (h : Reachable profile b) : b.issued.IsChain Dated := by
  induction h with
  | start cancelled now => exact List.isChain_nil
  | act h deed hact ih =>
    rcases issued_of_act hact with hissued | ⟨now, notices, document, s', hissue, hissued⟩
    · rwa [hissued]
    · rw [hissued]
      refine List.isChain_append.mpr ⟨ih, List.isChain_singleton _, ?_⟩
      intro earlier hlast later hlater
      cases hlater
      exact h.kept.dated_follow hissue hlast

/-- Of two consecutive documents, a condition that has the same status in both keeps its date
exactly when the phase is the same or the wall clock reads, as the later one is made, what
the earlier one was dated with. -/
theorem Reachable.keepsDate_iff (h : Reachable profile b) {earlier later : Issue}
    (hnext : [earlier, later] <:+: b.issued) (type : ConditionType) :
    KeepsDate type earlier.document later.document
      ↔ earlier.document.phase = later.document.phase
        ∨ type.turns earlier.document.phase later.document.phase = true
        ∨ ∀ condition ∈ earlier.document.conditions,
            condition.since = Session.wallTime later.made := by
  have hpair : [earlier, later].IsChain Dated := List.IsChain.infix h.dated hnext
  obtain ⟨since, since', hearlier, hlater, hdated⟩ := List.isChain_pair.mp hpair
  have hdates : (∀ condition ∈ earlier.document.conditions,
      condition.since = Session.wallTime later.made) ↔ since = Session.wallTime later.made := by
    rw [hearlier]
    refine ⟨fun hall => hall ⟨.degraded, .false, "", "", since⟩ ?_, fun hsince condition hmem => ?_⟩
    · simp [Phase.conditions]
    · rw [since_of_mem_conditions hmem, hsince]
  rw [keepsDate_iff_since hearlier hlater, hdates, hdated]
  split
  · rename_i hphase
    simp [hphase]
  · rename_i hphase
    simp [hphase]

/-- The operator starts at one time and runs at another. -/
def takeOff : List Deed := [.advance 100 false, .returns true, .advance 200 false]

/-- Available turns and may be dated anew, upgradeable is dated anew though it does not turn. -/
theorem keepsDate_takeOff : ∃ b earlier later, (start brief false 0).play takeOff = some b
    ∧ [earlier, later] <:+: b.issued
    ∧ KeepsDate .available earlier.document later.document
    ∧ ¬ KeepsDate .upgradeable earlier.document later.document := by
  obtain ⟨b, earlier, later, hplay, hissued, hphases, hdate⟩ :
      ∃ b earlier later, (start brief false 0).play takeOff = some b
        ∧ b.issued = [earlier, later]
        ∧ (earlier.document.phase = .starting ∧ later.document.phase = .running)
        ∧ ¬ ∀ condition ∈ earlier.document.conditions,
            condition.since = Session.wallTime later.made :=
    ⟨_, _, _, rfl, rfl, ⟨rfl, rfl⟩, by decide⟩
  have hreachable : Reachable brief b := .play (.start false 0) hplay
  have hnext : [earlier, later] <:+: b.issued := hissued ▸ List.infix_rfl
  refine ⟨b, earlier, later, hplay, hnext, ?_, ?_⟩
  · refine (hreachable.keepsDate_iff hnext .available).mpr (.inr (.inl ?_))
    rw [hphases.1, hphases.2]
    rfl
  · rw [hreachable.keepsDate_iff hnext .upgradeable, hphases.1, hphases.2]
    -- the phase has changed, the condition keeps its status in it, and time has passed
    rintro (hphase | hturns | hsince)
    · cases hphase
    · cases hturns
    · exact hdate hsince

/-- An operator that is not degraded while it starts nor while it runs is said not to be
degraded since another time. -/
theorem not_keepsDate_degraded : ¬ ∀ (profile : Profile) (b : Broadcast), Reachable profile b →
    ∀ earlier later, [earlier, later] <:+: b.issued →
      ∀ type, KeepsDate type earlier.document later.document := by
  intro hkeeps
  obtain ⟨b, earlier, later, hplay, hissued, before, after, hbefore, hafter, hstatus, hsince⟩ :
      ∃ b earlier later, (start brief false 0).play takeOff = some b
        ∧ b.issued = [earlier, later]
        ∧ ∃ before after, earlier.document.condition? .degraded = some before
          ∧ later.document.condition? .degraded = some after
          ∧ before.status = after.status ∧ before.since ≠ after.since :=
    ⟨_, _, _, rfl, rfl, _, _, rfl, rfl, rfl, by decide⟩
  have hreachable : Reachable brief b := .play (.start false 0) hplay
  exact hsince (hkeeps brief b hreachable earlier later (hissued ▸ List.infix_rfl) .degraded
    before hbefore after hafter hstatus)

end Broadcast

end Tenure.Status
