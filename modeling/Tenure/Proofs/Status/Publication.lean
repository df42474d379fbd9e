import Tenure.Status.Session

/-!
# `Tenure.Proofs.Status.Publication`: the documents of a session

A `Broadcast` is a session under its token, with the documents that it has handed to the
sink and the publications that have returned. The sink may take any time over a
publication and may fail it; the token may be cancelled at any instant, also while a
publication is out; and the wall clock may read anything. Of a tick and a cancellation
that are both due the session takes either, so a cancelled token may go unnoticed for
some ticks.

`Told` gives the phases that were told of, stage by stage. `Kept` puts beside it what is
known of each document. Every deed keeps it (`Kept.act`).

* `Reachable.wellFormed`: the documents are those of one that starts, of any number of
  ticks, and of one that stops, in that order and under one profile; the last one comes
  after the cancellation, and the signal resolves when its publication has returned.
-/

set_option autoImplicit false

namespace Tenure.Status

/-! ### What a session does by itself -/

namespace Session

/-- A session goes on by itself with a document. -/
inductive Issues (s : Session) (now : Moment) (notices : Bool) : Document → Session → Prop
  /-- The first one, that the operator starts. -/
  | opening (hstage : s.stage = .fresh) :
      Issues s now notices (s.profile.document .starting (wallTime now) (wallTime now))
        (s.start now)
  /-- One that the operator runs, at a tick. -/
  | telling {ticker : Ticker} (hstage : s.stage = .waiting) :
      Issues s now notices
        (s.profile.document .running (s.runningSince.getD (wallTime now)) (wallTime now))
        (s.tick ticker now)
  /-- The last one, that it has stopped. -/
  | closing (hstage : s.stage = .waiting) (hnotices : notices = true) :
      Issues s now notices (s.profile.document .stopped (wallTime now) (wallTime now))
        (s.stop now)

variable {s s' : Session} {now : Moment} {notices : Bool} {document : Document}

/-- Whenever a session goes on by itself, it is with a document. -/
theorem issues_of_advance (h : s.advance now notices = some s') :
    ∃ document, Issues s now notices document s' := by
  unfold advance at h
  split at h
  · rename_i hstage
    cases h
    exact ⟨_, .opening hstage⟩
  · rename_i ticker hstage hticker
    split at h
    · rename_i hnotices
      cases h
      exact ⟨_, .closing hstage hnotices⟩
    · split at h
      · cases h
        exact ⟨_, .telling hstage⟩
      · cases h
  · cases h

/-- The document that a session goes on with is the one that is being published. -/
theorem Issues.pending_eq (h : Issues s now notices document s') : s'.pending = some document := by
  cases h <;> rfl

/-- A session goes on with a document only when none is being published. -/
theorem Issues.pending_before (h : Issues s now notices document s') : s.pending = none := by
  cases h with
  | opening hstage | telling hstage | closing hstage _ => simp [pending, hstage]

/-- A session keeps its profile. -/
theorem Issues.profile_eq (h : Issues s now notices document s') : s'.profile = s.profile := by
  cases h <;> rfl

/-- A document is pending while it is being published, and at no other stage. -/
theorem stage_of_pending (h : s.pending = some document) : s.stage = .publishing document := by
  unfold pending at h
  split at h
  · rename_i hstage
    rw [hstage, Option.some.inj h]
  · cases h

/-- A publication that has returned leaves the session without one, and touches neither its
profile nor the time that it has noted. Only a session without an interval breaks down. -/
theorem exists_published (hpending : s.pending = some document) (instant : Nat) :
    ∃ stage ticker, s.published instant = { s with stage := stage, ticker := ticker }
      ∧ (s.published instant).pending = none
      ∧ (stage = .brokenDown → s.profile.interval.nanos = 0) := by
  have hstage := stage_of_pending hpending
  -- the first document starts the ticker, which an interval of zero makes impossible
  cases hphase : document.phase with
  | starting =>
    cases hticker : Ticker.start s.profile.interval instant with
    | none =>
      refine ⟨.brokenDown, s.ticker, by simp [published, hstage, hphase, hticker],
        by simp [published, pending, hstage, hphase, hticker], fun _ => ?_⟩
      simpa [Ticker.start] using hticker
    | some ticker =>
      exact ⟨.waiting, some ticker, by simp [published, hstage, hphase, hticker],
        by simp [published, pending, hstage, hphase, hticker], fun hbroken => by cases hbroken⟩
  | running =>
    exact ⟨.waiting, s.ticker, by simp [published, hstage, hphase],
      by simp [published, pending, hstage, hphase], fun hbroken => by cases hbroken⟩
  | stopped =>
    exact ⟨.completed, s.ticker, by simp [published, hstage, hphase],
      by simp [published, pending, hstage, hphase], fun hbroken => by cases hbroken⟩

end Session

/-- A document that was handed to the sink, and when it was made. -/
structure Issue where
  document : Document
  made : Moment
deriving Repr, DecidableEq

/-- A session under its token, and what has become of its documents. -/
structure Broadcast where
  session : Session
  cancelled : Bool
  now : Nat
  /-- The documents that were handed to the sink, the first one first. -/
  issued : List Issue
  /-- The publications that have returned, and whether each has succeeded. -/
  returned : List (Document × Bool)
deriving Repr, DecidableEq

namespace Broadcast

/-- One thing that happens to a session. -/
inductive Deed
  /-- The token is cancelled. -/
  | cancel
  /-- The session does something by itself, and may notice that its token is cancelled. -/
  | advance (wall : Nat) (notices : Bool)
  /-- The sink is done with a document. -/
  | returns (succeeds : Bool)
  /-- Time passes. -/
  | pass (later : Nat)
deriving Repr, DecidableEq

/-- The session goes on by itself. -/
def follow (b : Broadcast) (now : Moment) (session : Session) : Broadcast :=
  { b with
    session := session
    issued := b.issued ++ session.pending.toList.map (⟨·, now⟩) }

/-- Lets one thing happen, when it can. -/
def act (b : Broadcast) : Deed → Option Broadcast
  | .cancel => some { b with cancelled := true }
  | .advance wall notices =>
    if notices && !b.cancelled then none
    else (b.session.advance ⟨b.now, wall⟩ notices).map (b.follow ⟨b.now, wall⟩)
  | .returns succeeds => b.session.pending.map fun document =>
    { b with
      session := b.session.published b.now
      returned := b.returned ++ [(document, succeeds)] }
  | .pass later => if b.now ≤ later then some { b with now := later } else none

/-- A session that was just set up, under a token. -/
def start (profile : Profile) (cancelled : Bool) (now : Nat) : Broadcast :=
  ⟨.new profile, cancelled, now, [], []⟩

/-- The points that the sessions of a profile come to. -/
inductive Reachable (profile : Profile) : Broadcast → Prop
  | start (cancelled : Bool) (now : Nat) : Reachable profile (start profile cancelled now)
  | act {b b' : Broadcast} (h : Reachable profile b) (deed : Deed) (hact : b.act deed = some b') :
      Reachable profile b'

/-- Lets one thing happen after another. -/
def play (b : Broadcast) : List Deed → Option Broadcast
  | [] => some b
  | deed :: rest => (b.act deed).bind (play · rest)

variable {profile : Profile} {b b' : Broadcast} {deed : Deed}

/-- Deeds one after the other lead from reachable points to reachable points. -/
theorem Reachable.play (h : Reachable profile b) {deeds : List Deed}
    (hplay : b.play deeds = some b') : Reachable profile b' := by
  induction deeds generalizing b with
  | nil =>
    cases hplay
    exact h
  | cons deed rest ih =>
    obtain ⟨next, hact, hrest⟩ := Option.bind_eq_some_iff.mp hplay
    exact ih (.act h deed hact) hrest

/-- The phases that a session has told of. -/
def phases (b : Broadcast) : List Phase := b.issued.map (·.document.phase)

/-! ### What every deed keeps -/

/-- That the operator starts, and some times that it runs. -/
def opening (ticks : Nat) : List Phase := .starting :: .replicate ticks .running

/-- One more tick tells once more that the operator runs. -/
theorem opening_succ (ticks : Nat) : opening (ticks + 1) = opening ticks ++ [.running] := by
  rw [opening, List.replicate_succ', ← List.cons_append]
  rfl

/-- No number of ticks tells that the operator has stopped. -/
theorem stopped_notMem_opening (ticks : Nat) : Phase.stopped ∉ opening ticks := by
  intro hmem
  cases hmem with
  | tail _ hmem => cases (List.mem_replicate.mp hmem).2

/-- The phases that a session has told of when it comes to a stage. -/
inductive Told (cancelled : Bool) : Session.Stage → List Phase → Prop
  | fresh : Told cancelled .fresh []
  | starting {document : Document} (hphase : document.phase = .starting) :
      Told cancelled (.publishing document) (opening 0)
  | running {document : Document} (hphase : document.phase = .running) (ticks : Nat) :
      Told cancelled (.publishing document) (opening (ticks + 1))
  | waiting (ticks : Nat) : Told cancelled .waiting (opening ticks)
  | brokenDown : Told cancelled .brokenDown (opening 0)
  | stopping {document : Document} (hphase : document.phase = .stopped) (ticks : Nat)
      (hcancelled : cancelled = true) :
      Told cancelled (.publishing document) (opening ticks ++ [.stopped])
  | completed (ticks : Nat) (hcancelled : cancelled = true) :
      Told cancelled .completed (opening ticks ++ [.stopped])

/-- A document is one of a session: it is made from the profile, and when it tells that the
operator runs it gives the time that the session has noted. -/
def Wrote (s : Session) (issue : Issue) : Prop :=
  ∃ since, issue.document
      = s.profile.document issue.document.phase since (Session.wallTime issue.made)
    ∧ (issue.document.phase = .running → s.runningSince = some since)

/-- What every deed keeps. -/
structure Kept (profile : Profile) (b : Broadcast) : Prop where
  profile_eq : b.session.profile = profile
  told : Told b.cancelled b.session.stage b.phases
  /-- With an interval a session does not break down. -/
  sturdy : b.session.stage = .brokenDown → profile.interval.nanos = 0
  wrote : ∀ issue ∈ b.issued, Wrote b.session issue
  /-- A time is noted with the first document that tells that the operator runs. -/
  noted : b.session.runningSince.isSome = true → .running ∈ b.phases
  /-- One publication at most is out. -/
  settled : b.issued.map Issue.document = b.returned.map Prod.fst ++ b.session.pending.toList

/-- A session that was just set up has told nothing and published nothing. -/
theorem kept_start (profile : Profile) (cancelled : Bool) (now : Nat) :
    (start profile cancelled now).Kept profile where
  profile_eq := rfl
  told := .fresh
  sturdy hbroken := by cases hbroken
  wrote issue hissue := by cases hissue
  noted hsome := by cases hsome
  settled := rfl

/-- What has been told stays in order once the token is cancelled. -/
theorem Told.cancel {cancelled : Bool} {stage : Session.Stage} {phases : List Phase}
    (h : Told cancelled stage phases) : Told true stage phases := by
  cases h with
  | fresh => exact .fresh
  | starting hphase => exact .starting hphase
  | running hphase ticks => exact .running hphase ticks
  | waiting ticks => exact .waiting ticks
  | brokenDown => exact .brokenDown
  | stopping hphase ticks _ => exact .stopping hphase ticks rfl
  | completed ticks _ => exact .completed ticks rfl

/-- A document that a session goes on with comes in its turn. -/
theorem Told.issue {cancelled notices : Bool} {s s' : Session} {now : Moment}
    {document : Document} {phases : List Phase} (h : Told cancelled s.stage phases)
    (hissue : s.Issues now notices document s') (hnotices : notices = true → cancelled = true) :
    Told cancelled s'.stage (phases ++ [document.phase]) := by
  cases hissue with
  | opening hstage =>
    rw [hstage] at h
    cases h
    exact .starting rfl
  | telling hstage =>
    rw [hstage] at h
    cases h with
    | waiting ticks =>
      show Told cancelled (s.tick _ now).stage (opening ticks ++ [.running])
      rw [← opening_succ]
      exact .running rfl ticks
  | closing hstage hnotice =>
    rw [hstage] at h
    cases h with
    | waiting ticks => exact .stopping rfl ticks (hnotices hnotice)

/-- A session that goes on, or ends, when a publication has returned. -/
theorem Told.returns {cancelled : Bool} {s : Session} {phases : List Phase}
    (h : Told cancelled s.stage phases) (instant : Nat) :
    Told cancelled (s.published instant).stage phases := by
  unfold Session.published
  cases hstage : s.stage with
  | publishing document =>
    rw [hstage] at h
    cases h with
    | starting hphase =>
      cases hticker : Ticker.start s.profile.interval instant with
      | none => simpa only [hphase, hticker] using Told.brokenDown
      | some ticker => simpa only [hphase, hticker] using Told.waiting 0
    | running hphase ticks => simpa only [hphase] using Told.waiting (ticks + 1)
    | stopping hphase ticks hcancelled =>
      simpa only [hphase] using Told.completed ticks hcancelled
  | _ => simpa only [hstage] using h

/-- Noting when the operator was first seen running changes nothing for the documents that
are out. -/
theorem Wrote.issue {s s' : Session} {now : Moment} {notices : Bool} {document : Document}
    {issue : Issue} (h : Wrote s issue) (hissue : s.Issues now notices document s') :
    Wrote s' issue := by
  obtain ⟨since, hdocument, hsince⟩ := h
  refine ⟨since, ?_, fun hrunning => ?_⟩
  · rw [hissue.profile_eq]
    exact hdocument
  · cases hissue with
    | opening _ | closing _ _ => exact hsince hrunning
    | telling _ => simp [Session.tick, hsince hrunning]

/-- The document that a session goes on with is one of its own. -/
theorem wrote_of_issues {s s' : Session} {now : Moment} {notices : Bool} {document : Document}
    (hissue : s.Issues now notices document s') : Wrote s' ⟨document, now⟩ := by
  cases hissue with
  | opening hstage => exact ⟨_, rfl, fun hrunning => by cases hrunning⟩
  | telling hstage => exact ⟨_, rfl, fun _ => rfl⟩
  | closing hstage hnotices => exact ⟨_, rfl, fun hrunning => by cases hrunning⟩

/-- A document that a session goes on with is handed to the sink. -/
theorem issued_follow {s' : Session} {now : Moment} {notices : Bool} {document : Document}
    (hissue : b.session.Issues now notices document s') :
    (b.follow now s').issued = b.issued ++ [⟨document, now⟩] := by
  simp [Broadcast.follow, hissue.pending_eq]

/-- The session goes on by itself. -/
theorem Kept.follow (h : b.Kept profile) {s' : Session} {now : Moment} {notices : Bool}
    {document : Document} (hissue : b.session.Issues now notices document s')
    (hnotices : notices = true → b.cancelled = true) : (b.follow now s').Kept profile := by
  have hissued := issued_follow hissue
  -- one more phase is told, that of the document which the session goes on with
  have hphases : (b.follow now s').phases = b.phases ++ [document.phase] := by
    simp [phases, hissued]
  refine ⟨hissue.profile_eq.trans h.profile_eq, ?_, ?_, ?_, ?_, ?_⟩
  · rw [hphases]
    exact h.told.issue hissue hnotices
  · intro hbroken
    cases hissue <;> cases hbroken
  · intro issue hmem
    rw [hissued] at hmem
    rcases List.mem_append.mp hmem with hmem | hmem
    · exact (h.wrote issue hmem).issue hissue
    · rw [List.mem_singleton.mp hmem]
      exact wrote_of_issues hissue
  · intro hsome
    rw [hphases]
    cases hissue with
    | opening _ | closing _ _ => exact List.mem_append_left _ (h.noted hsome)
    | telling _ => exact List.mem_append_right _ (List.mem_singleton.mpr rfl)
  · have hsettled := h.settled
    rw [hissue.pending_before] at hsettled
    simp [hsettled, Broadcast.follow, hissue.pending_eq]

/-- Every deed keeps it. -/
theorem Kept.act (h : b.Kept profile) (hact : b.act deed = some b') : b'.Kept profile := by
  cases deed with
  | cancel =>
    cases hact
    exact ⟨h.profile_eq, h.told.cancel, h.sturdy, h.wrote, h.noted, h.settled⟩
  | advance wall notices =>
    simp only [Broadcast.act] at hact
    split at hact
    · cases hact
    · rename_i hunseen
      obtain ⟨s', hadvance, rfl⟩ := Option.map_eq_some_iff.mp hact
      obtain ⟨document, hissue⟩ := Session.issues_of_advance hadvance
      exact h.follow hissue fun hnotices => by simpa [hnotices] using hunseen
  | returns succeeds =>
    obtain ⟨document, hpending, rfl⟩ := Option.map_eq_some_iff.mp hact
    -- the return tells nothing new; the document counts as returned from now on
    have htold := h.told.returns b.now
    obtain ⟨stage, ticker, hpublished, hdone, hbroken⟩ :=
      Session.exists_published hpending b.now
    refine ⟨?_, htold, ?_, ?_, ?_, ?_⟩
    · rw [hpublished]
      exact h.profile_eq
    · rw [hpublished]
      exact fun hstage => h.profile_eq ▸ hbroken hstage
    · rw [hpublished]
      exact h.wrote
    · rw [hpublished]
      exact h.noted
    · rw [hdone]
      simp [h.settled, hpending]
  | pass later =>
    simp only [Broadcast.act] at hact
    split at hact <;> cases hact
    exact ⟨h.profile_eq, h.told, h.sturdy, h.wrote, h.noted, h.settled⟩

/-- What every deed keeps holds at every point. -/
theorem Reachable.kept (h : Reachable profile b) : b.Kept profile := by
  induction h with
  | start cancelled now => exact kept_start profile cancelled now
  | act _ deed hact ih => exact ih.act hact

/-! ### What is published -/

/-- What holds of the publications of a session at every point. -/
structure WellFormed (profile : Profile) (b : Broadcast) : Prop where
  /-- One document that the operator starts, any number that it runs, one that it has
  stopped, as far as the session has come. -/
  ordered : ∃ ticks, b.phases <+: opening ticks ++ [.stopped]
  /-- That it has stopped is published only when the token was cancelled. -/
  stopped_cancelled : .stopped ∈ b.phases → b.cancelled = true
  /-- Publications return in the order of the documents, and one at most is out. -/
  awaited : b.issued.map Issue.document = b.returned.map Prod.fst ++ b.session.pending.toList
  /-- The signal has resolved when the last publication has returned, and not before. -/
  signals : b.session.isResolved = true
    ↔ ∃ publication ∈ b.returned, publication.1.phase = .stopped
  /-- Documents that the operator runs give one and the same time. -/
  steady : ∃ since : UInt64, ∀ issue ∈ b.issued, issue.document.phase = .running →
    ∀ condition ∈ issue.document.conditions, condition.since = since
  /-- Documents carry what the profile says. -/
  profiled : ∀ issue ∈ b.issued, issue.document.name = profile.name
    ∧ issue.document.version = profile.version ∧ issue.document.reporter = profile.reporter
    ∧ issue.document.relatedObjects = profile.relatedObjects

/-- All conditions of a document carry its one date. -/
theorem since_of_mem_conditions {phase : Phase} {since : UInt64} {condition : Condition}
    (h : condition ∈ phase.conditions since) : condition.since = since := by
  cases phase <;> simp only [Phase.conditions, List.mem_cons, List.not_mem_nil, or_false] at h <;>
    rcases h with rfl | rfl | rfl | rfl <;> rfl

/-- The phases told of are those of a whole session as far as it has come. -/
theorem Told.ordered {cancelled : Bool} {stage : Session.Stage} {phases : List Phase}
    (h : Told cancelled stage phases) : ∃ ticks, phases <+: opening ticks ++ [.stopped] := by
  cases h with
  | fresh => exact ⟨0, List.nil_prefix⟩
  | starting _ => exact ⟨0, List.prefix_append _ _⟩
  | running _ ticks => exact ⟨ticks + 1, List.prefix_append _ _⟩
  | waiting ticks => exact ⟨ticks, List.prefix_append _ _⟩
  | brokenDown => exact ⟨0, List.prefix_append _ _⟩
  | stopping _ ticks _ | completed ticks _ => exact ⟨ticks, List.prefix_rfl⟩

/-- A session tells that the operator has stopped only under a cancelled token. -/
theorem Told.cancelled_of_stopped {cancelled : Bool} {stage : Session.Stage}
    {phases : List Phase} (h : Told cancelled stage phases) (hmem : .stopped ∈ phases) :
    cancelled = true := by
  cases h with
  | fresh => cases hmem
  | starting _ | brokenDown => exact absurd hmem (stopped_notMem_opening 0)
  | running _ ticks => exact absurd hmem (stopped_notMem_opening (ticks + 1))
  | waiting ticks => exact absurd hmem (stopped_notMem_opening ticks)
  | stopping _ _ hcancelled | completed _ hcancelled => exact hcancelled

/-- The phases whose publications have returned are the phases told of, but for the document
that is out. -/
theorem Kept.phases_eq (h : b.Kept profile) :
    b.phases = b.returned.map (·.1.phase) ++ (b.session.pending.toList.map Document.phase) := by
  have hsettled := congrArg (List.map Document.phase) h.settled
  simpa [phases, List.map_map, Function.comp_def] using hsettled

/-- The signal has resolved when the publication of the last document has returned. -/
theorem Kept.isResolved_iff (h : b.Kept profile) (hinterval : profile.interval.nanos ≠ 0) :
    b.session.isResolved = true ↔ .stopped ∈ b.returned.map (·.1.phase) := by
  have htold := h.told
  have hphases := h.phases_eq
  generalize hstage : b.session.stage = stage at htold
  generalize b.phases = phases at htold hphases
  simp only [Session.isResolved, Session.pending, hstage] at hphases ⊢
  -- what has returned was told of, and only the end of a session tells that it has stopped
  have hearly : ∀ ticks rest, opening ticks = b.returned.map (·.1.phase) ++ rest →
      .stopped ∉ b.returned.map (·.1.phase) := by
    intro ticks rest htold hmem
    apply stopped_notMem_opening ticks
    rw [htold]
    exact List.mem_append_left _ hmem
  cases htold with
  | brokenDown => exact absurd (h.sturdy hstage) hinterval
  | fresh =>
    have hnone := (List.append_eq_nil_iff.mp hphases.symm).1
    simp [hnone]
  | starting hphase =>
    exact iff_of_false Bool.false_ne_true (hearly 0 _ hphases)
  | running hphase ticks =>
    exact iff_of_false Bool.false_ne_true (hearly (ticks + 1) _ hphases)
  | waiting ticks =>
    exact iff_of_false Bool.false_ne_true (hearly ticks _ hphases)
  | stopping hphase ticks hcancelled =>
    have hrest := List.append_inj_left' hphases rfl
    exact iff_of_false Bool.false_ne_true (hearly ticks [] (by rw [hrest, List.append_nil]))
  | completed ticks hcancelled =>
    refine iff_of_true rfl ?_
    rw [← List.append_nil (b.returned.map _)]
    exact hphases ▸ List.mem_append_right _ (List.mem_singleton.mpr rfl)

/-- At every point, whatever the sink does and whenever the token is cancelled, the
publications of a session with an interval are well formed. -/
theorem Reachable.wellFormed (h : Reachable profile b) (hinterval : 0 < profile.interval.nanos) :
    b.WellFormed profile := by
  have hkept := h.kept
  refine ⟨hkept.told.ordered, hkept.told.cancelled_of_stopped, hkept.settled, ?_, ?_, ?_⟩
  · rw [hkept.isResolved_iff (Nat.ne_of_gt hinterval)]
    simp
  · refine ⟨b.session.runningSince.getD 0, fun issue hissue hrunning condition hcondition => ?_⟩
    obtain ⟨since, hdocument, hsince⟩ := hkept.wrote issue hissue
    rw [hdocument] at hcondition
    rw [hsince hrunning]
    exact since_of_mem_conditions hcondition
  · intro issue hissue
    obtain ⟨since, hdocument, -⟩ := hkept.wrote issue hissue
    rw [hdocument, hkept.profile_eq]
    exact ⟨rfl, rfl, rfl, rfl⟩

/-- A profile that reports every thirty milliseconds. -/
def brief : Profile :=
  ⟨"controller", "1.0", "pod-a", [⟨"", "namespaces", "", "system"⟩], .ofMillis 30⟩

/-- The wall clock is set back between two ticks, the sink fails every other document, and
the token is cancelled while the second tick is being published. -/
def unsteady : List Deed :=
  [.advance 100 false, .returns true, .advance 200 false, .returns false, .pass 30000000,
    .advance 50 false, .cancel, .returns true, .advance 300 true, .returns false]

/-- In the run that this shows, the clock is set back and every other publication fails, and the
phases are told in order all the same. -/
theorem wellFormed_unsteady : ∃ b, (start brief false 0).play unsteady = some b
    ∧ b.phases = [.starting, .running, .running, .stopped]
    ∧ b.returned.map Prod.snd = [true, false, true, false] ∧ b.WellFormed brief := by
  obtain ⟨b, hplay, hphases, hreturned⟩ : ∃ b, (start brief false 0).play unsteady = some b
      ∧ b.phases = [.starting, .running, .running, .stopped]
      ∧ b.returned.map Prod.snd = [true, false, true, false] := ⟨_, rfl, rfl, rfl⟩
  exact ⟨b, hplay, hphases, hreturned,
    Reachable.wellFormed (.play (.start false 0) hplay) (by decide)⟩

end Broadcast

end Tenure.Status
