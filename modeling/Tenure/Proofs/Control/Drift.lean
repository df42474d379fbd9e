import Mathlib.Data.List.Chain
import Tenure.Control.Drift
import Tenure.Proofs.Defaults.Difference

/-!
# `Tenure.Proofs.Control.Drift`: what a drift controller tells

An `Execution` is a run of a drift controller under its token, with the rounds that it has been
through: what was read in each, and what it told then. The defaults may be read as anything, the
reading may fail or break down, it may take any time, and the token may be cancelled at any
instant. Of a tick and a cancellation that are both due the controller takes either.

The controller keeps the names that it reported last, and these are those that differed in
the last round in which it could read (`Kept.lastReported_eq`). So it reports a round when
that has other names, and the reports are exact (`Kept.answer`).

* `Reachable.reports_exactly`: every round tells what it has to and nothing else, no two
  reports in a row are the same, and only a cancellation ends the rounds.
-/

set_option autoImplicit false

namespace Tenure.Control.Drift

/-! ### Reports -/

/-- The names that an event reports as differing, if it is a report. -/
def Event.names? : Event → Option (List String)
  | .backInSync => some []
  | .changed names => some names
  | .unreadable _ => none

/-- The report of some names. -/
def report (names : List String) : Event :=
  if names.isEmpty then .backInSync else .changed names

/-- The report of some names reports them, also when there are none. -/
theorem names?_report (names : List String) : (report names).names? = some names := by
  cases names <;> rfl

/-- What was read in a round, and what the controller told then. -/
structure Round where
  reading : Defaults.Reading
  told : List Event

namespace Round

/-- The reports that were made in some rounds, the first one first. -/
def reports (rounds : List Round) : List (List String) :=
  (rounds.flatMap told).filterMap Event.names?

/-- The names that were reported last; before any report, none. -/
def lastReported (rounds : List Round) : List String := (reports rounds).getLast?.getD []

/-- The defaults of the last round in which they could be read. -/
def lastRead (rounds : List Round) : Option Defaults :=
  (rounds.filterMap fun round => round.reading.result.toOption).getLast?

/-- The definition of a name differed in the last round in which the defaults could be
read. -/
def Drifted (applied : Defaults) (rounds : List Round) (name : String) : Prop :=
  ∃ current, lastRead rounds = some current ∧ ¬ applied.AgreeAt current name

/-- A round tells what it has to, after other rounds. -/
structure IsExact (applied : Defaults) (before : List Round) (round : Round) : Prop where
  /-- After a round in which the defaults could be read, what was reported last are the names
  whose definitions differ, each once. -/
  names : ∀ current, round.reading.result = .ok current →
    (lastReported (before ++ [round])).Pairwise (· < ·)
      ∧ ∀ name, name ∈ lastReported (before ++ [round]) ↔ ¬ applied.AgreeAt current name
  /-- Such a round makes no report if it has the names of the last one before it, -/
  silent : ∀ current, round.reading.result = .ok current →
    (∀ name, ¬ applied.AgreeAt current name ↔ Drifted applied before name) → round.told = []
  /-- and one report if it has other names. -/
  telling : ∀ current, round.reading.result = .ok current →
    ¬ (∀ name, ¬ applied.AgreeAt current name ↔ Drifted applied before name) →
      round.told = [report (lastReported (before ++ [round]))]
  /-- A round in which they could not be read tells so, and leaves the last report as it
  was. -/
  unreadable : ∀ error, round.reading.result = .error error →
    round.told = [.unreadable error] ∧ lastReported (before ++ [round]) = lastReported before

variable {applied current : Defaults} {rounds : List Round} {round : Round} {name : String}

/-- The names that were reported last are those of the last report in the next round, or the old
ones if that round reports nothing. -/
theorem lastReported_concat :
    lastReported (rounds ++ [round])
      = (round.told.filterMap Event.names?).getLast?.getD (lastReported rounds) := by
  simp only [lastReported, reports, List.flatMap_append, List.flatMap_singleton,
    List.filterMap_append, List.getLast?_append]
  cases (round.told.filterMap Event.names?).getLast? <;> rfl

/-- The defaults that were read last are those of the next round, or the old ones if it could not
read. -/
theorem lastRead_concat :
    lastRead (rounds ++ [round]) = round.reading.result.toOption.or (lastRead rounds) := by
  simp only [lastRead, List.filterMap_append, List.getLast?_append, List.filterMap_cons,
    List.filterMap_nil]
  cases round.reading.result.toOption <;> rfl

/-- The names that differed in the last round that could be read, as they are listed. -/
def driftedNames (applied : Defaults) (rounds : List Round) : List String :=
  ((lastRead rounds).map applied.diff).getD []

/-- The names that differ are those whose values do, in the last round in which there were values
to compare. -/
theorem mem_driftedNames : name ∈ driftedNames applied rounds ↔ Drifted applied rounds name := by
  unfold driftedNames Drifted
  cases lastRead rounds <;> simp [Defaults.mem_diff]

/-- Two lists of names that differ are one list when they have the same names. -/
theorem diff_eq_driftedNames
    (h : ∀ name, name ∈ driftedNames applied rounds ↔ name ∈ applied.diff current) :
    applied.diff current = driftedNames applied rounds := by
  have hdrifted : (driftedNames applied rounds).Pairwise (· < ·) := by
    unfold driftedNames
    cases lastRead rounds with
    | none => exact List.Pairwise.nil
    | some before => exact Defaults.pairwise_diff applied before
  exact (Defaults.pairwise_diff applied current).eq_of_mem_iff hdrifted fun name => (h name).symm

/-- Two lists of names agree exactly if the same names differ, since both are in ascending order. -/
theorem diff_eq_driftedNames_iff : applied.diff current = driftedNames applied rounds
    ↔ ∀ name, ¬ applied.AgreeAt current name ↔ Drifted applied rounds name := by
  constructor
  · intro heq name
    rw [← Defaults.mem_diff, heq, mem_driftedNames]
  · intro hsame
    refine diff_eq_driftedNames fun name => ?_
    rw [Defaults.mem_diff, hsame, mem_driftedNames]

/-- What a controller makes of the defaults, when they can be read. -/
theorem isExact_of_ok (hresult : round.reading.result = .ok current)
    (hlast : lastReported (rounds ++ [round]) = applied.diff current)
    (hsilent : applied.diff current = driftedNames applied rounds → round.told = [])
    (htelling : applied.diff current ≠ driftedNames applied rounds →
      round.told = [report (applied.diff current)]) : IsExact applied rounds round where
  names other hother := by
    cases hresult.symm.trans hother
    rw [hlast]
    exact ⟨Defaults.pairwise_diff applied current, fun _ => Defaults.mem_diff⟩
  silent other hother hsame := by
    cases hresult.symm.trans hother
    exact hsilent (diff_eq_driftedNames_iff.mpr hsame)
  telling other hother hchanged := by
    cases hresult.symm.trans hother
    rw [hlast]
    exact htelling fun hsame => hchanged (diff_eq_driftedNames_iff.mp hsame)
  unreadable error herror := by cases hresult.symm.trans herror

/-- What a controller makes of defaults that cannot be read: it tells the error, and what it
reported last stays that. -/
theorem isExact_of_error {error : DefaultsError} (hresult : round.reading.result = .error error)
    (hlast : lastReported (rounds ++ [round]) = lastReported rounds)
    (htold : round.told = [.unreadable error]) : IsExact applied rounds round where
  names current hcurrent := by cases hresult.symm.trans hcurrent
  silent current hcurrent := by cases hresult.symm.trans hcurrent
  telling current hcurrent := by cases hresult.symm.trans hcurrent
  unreadable other hother := by
    cases hresult.symm.trans hother
    exact ⟨htold, hlast⟩

end Round

/-- What a controller makes of what it has read: it cannot be read, there is nothing new, or
other names than before differ. -/
inductive Outcome (d : Drift) : Except DefaultsError Defaults → Drift × List Event → Prop
  | unreadable (error : DefaultsError) : Outcome d (.error error) (d, [.unreadable error])
  | same {current : Defaults} (hsame : d.applied.diff current = d.reported) :
      Outcome d (.ok current) (d, [])
  | changed {current : Defaults} (hchanged : d.applied.diff current ≠ d.reported) :
      Outcome d (.ok current)
        ({ d with reported := d.applied.diff current }, [report (d.applied.diff current)])

/-- What a comparison tells is one of the outcomes, and goes with what the controller keeps. -/
theorem compare_outcome (d : Drift) (result : Except DefaultsError Defaults) :
    Outcome d result (d.compare result) := by
  cases result with
  | error error => exact .unreadable error
  | ok current =>
    simp only [compare]
    split
    · rename_i hsame
      exact .same hsame
    · rename_i hchanged
      exact .changed hchanged

/-- Nothing but the names that were reported last depends on what was read. -/
theorem Outcome.exists_reported {d d' : Drift} {result : Except DefaultsError Defaults}
    {told : List Event} (h : Outcome d result (d', told)) :
    ∃ reported, d' = { d with reported := reported } := by
  cases h with
  | unreadable error => exact ⟨d.reported, rfl⟩
  | same hsame => exact ⟨d.reported, rfl⟩
  | changed hchanged => exact ⟨_, rfl⟩

/-- What a controller does by itself concerns nothing but its stage. -/
theorem exists_advance {d d' : Drift} {now : Nat} {notices : Bool}
    (h : d.advance now notices = some d') :
    ∃ stage, d' = { d with stage := stage } ∧ stage ≠ .fresh
      ∧ (stage = .brokenDown → d.resync.nanos = 0) ∧ (stage = .ended → notices = true) := by
  unfold advance at h
  split at h
  · cases h
    -- the first tick needs an interval: without one the task breaks down at once
    unfold start Ticker.start
    split
    · rename_i hnone
      exact ⟨.brokenDown, rfl, nofun, fun _ => by simpa using hnone, nofun⟩
    · exact ⟨.waiting _, rfl, nofun, nofun, nofun⟩
  · split at h
    · rename_i hnotices
      cases h
      exact ⟨.ended, rfl, nofun, nofun, fun _ => hnotices⟩
    · split at h
      · cases h
        exact ⟨.reading _, rfl, nofun, nofun, nofun⟩
      · cases h
  · cases h

/-- What was read is compared, and the controller waits for its next tick. -/
theorem exists_answer {d : Drift} (h : d.isReading = true)
    (result : Except DefaultsError Defaults) :
    ∃ ticker reported told,
      d.answer result = ({ d with stage := .waiting ticker, reported := reported }, told)
      ∧ Outcome { d with stage := .waiting ticker } result
        ({ d with stage := .waiting ticker, reported := reported }, told) := by
  unfold isReading at h
  split at h
  · rename_i ticker hstage
    have houtcome := compare_outcome { d with stage := .waiting ticker } result
    simp only [answer, hstage]
    generalize Drift.compare _ _ = answer at houtcome ⊢
    obtain ⟨d', told⟩ := answer
    obtain ⟨reported, rfl⟩ := houtcome.exists_reported
    exact ⟨ticker, reported, told, rfl, houtcome⟩
  · cases h

/-- What a controller has kept of some rounds: the names that it reported last are those of
the last round that could be read, and so far it has told what it had to. -/
structure Recorded (applied : Defaults) (reported : List String) (rounds : List Round) :
    Prop where
  lastReported_eq : Round.lastReported rounds = reported
  driftedNames_eq : Round.driftedNames applied rounds = reported
  exact : ∀ before round after, rounds = before ++ round :: after →
    Round.IsExact applied before round
  changing : ([] :: Round.reports rounds).IsChain
    fun earlier later => ¬ ∀ name, name ∈ earlier ↔ name ∈ later

/-- A controller that has been through no round has reported nothing. -/
theorem recorded_nil (applied : Defaults) : Recorded applied [] [] where
  lastReported_eq := rfl
  driftedNames_eq := rfl
  exact before round after h := by simp at h
  changing := .singleton []

/-- Of the rounds with one more at their end, only that one has to be looked at. -/
theorem Recorded.exact_concat {applied : Defaults} {reported : List String}
    {rounds : List Round} {round : Round} (h : Recorded applied reported rounds)
    (hround : Round.IsExact applied rounds round) :
    ∀ before other after, rounds ++ [round] = before ++ other :: after →
      Round.IsExact applied before other := by
  intro before other after hsplit
  rcases List.eq_nil_or_concat after with rfl | ⟨after, last, rfl⟩
  · obtain ⟨rfl, hlast⟩ := List.append_inj' hsplit rfl
    cases hlast
    exact hround
  · rw [List.concat_eq_append, ← List.cons_append, ← List.append_assoc] at hsplit
    exact h.exact before other after (List.append_inj' hsplit rfl).1

/-- Other names than those reported last make a report that differs from the last one. -/
theorem Recorded.changing_concat {applied current : Defaults} {reported : List String}
    {rounds : List Round} (h : Recorded applied reported rounds)
    (hchanged : applied.diff current ≠ reported) :
    ([] :: (Round.reports rounds ++ [applied.diff current])).IsChain
      fun earlier later => ¬ ∀ name, name ∈ earlier ↔ name ∈ later := by
  rw [← List.cons_append]
  refine List.isChain_append.mpr ⟨h.changing, .singleton _, ?_⟩
  intro before hbefore names hnames
  have hreported : before = reported := by
    rw [← h.lastReported_eq, Round.lastReported]
    rw [List.getLast?_cons] at hbefore
    exact (Option.some.inj hbefore).symm
  have hnew : names = applied.diff current := (Option.some.inj hnames).symm
  rw [hreported, hnew, ← h.driftedNames_eq]
  exact fun hsame => hchanged ((Round.diff_eq_driftedNames hsame).trans h.driftedNames_eq)

/-- One more round. What is recorded of it depends on whether the defaults could be read, and
then on whether they differ as they did before. -/
theorem Recorded.concat {d d' : Drift} {rounds : List Round} {reading : Defaults.Reading}
    {told : List Event} (h : Recorded d.applied d.reported rounds)
    (houtcome : Outcome d reading.result (d', told)) :
    Recorded d.applied d'.reported (rounds ++ [⟨reading, told⟩]) := by
  have hreports : Round.reports (rounds ++ [⟨reading, told⟩])
      = Round.reports rounds ++ told.filterMap Event.names? := by
    simp [Round.reports]
  generalize hresult : reading.result = result at houtcome
  cases houtcome with
  | unreadable error =>
    have hlast : Round.lastReported (rounds ++ [⟨reading, [.unreadable error]⟩])
        = Round.lastReported rounds := Round.lastReported_concat
    refine ⟨hlast.trans h.lastReported_eq, ?_,
      h.exact_concat (Round.isExact_of_error hresult hlast rfl), ?_⟩
    · rw [← h.driftedNames_eq]
      simp [Round.driftedNames, Round.lastRead_concat, hresult, Except.toOption]
    · -- an error names nothing, so the reports are those that there were
      have hnone : [Event.unreadable error].filterMap Event.names? = [] := rfl
      rw [hreports, hnone, List.append_nil]
      exact h.changing
  | @same current hsame =>
    have hlast : Round.lastReported (rounds ++ [⟨reading, []⟩]) = d.applied.diff current :=
      Round.lastReported_concat.trans (h.lastReported_eq.trans hsame.symm)
    have hround := Round.isExact_of_ok hresult hlast (fun _ => rfl) fun hchanged =>
      absurd (hsame.trans h.driftedNames_eq.symm) hchanged
    refine ⟨hlast.trans hsame, ?_, h.exact_concat hround, ?_⟩
    · rw [← hsame]
      simp [Round.driftedNames, Round.lastRead_concat, hresult, Except.toOption]
    · rw [hreports]
      simpa using h.changing
  | @changed current hchanged =>
    have hnames : [report (d.applied.diff current)].filterMap Event.names?
        = [d.applied.diff current] := by
      simp [names?_report]
    have hlast : Round.lastReported (rounds ++ [⟨reading, [report (d.applied.diff current)]⟩])
        = d.applied.diff current := by
      rw [Round.lastReported_concat]
      simp [names?_report]
    have hround := Round.isExact_of_ok hresult hlast
      (fun hsame => absurd (hsame.trans h.driftedNames_eq) hchanged) fun _ => rfl
    refine ⟨hlast, ?_, h.exact_concat hround, ?_⟩
    · simp [Round.driftedNames, Round.lastRead_concat, hresult, Except.toOption]
    · rw [hreports, hnames]
      exact h.changing_concat hchanged

/-! ### A controller at work -/

/-- A drift controller under its token, and the rounds that it has been through. -/
structure Execution where
  drift : Drift
  cancelled : Bool
  now : Nat
  rounds : List Round

namespace Execution

/-- One thing that happens to a controller. -/
inductive Deed
  /-- The token is cancelled. -/
  | cancel
  /-- The controller does something by itself, and may notice that its token is cancelled. -/
  | advance (notices : Bool)
  /-- The defaults have been read. -/
  | read (reading : Defaults.Reading)
  /-- Time passes. -/
  | pass (later : Nat)

/-- The controller takes what was read. -/
def hear (v : Execution) (reading : Defaults.Reading) : Execution :=
  { v with
    drift := (v.drift.answer reading.result).1
    rounds := v.rounds ++ [⟨reading, (v.drift.answer reading.result).2⟩] }

/-- Lets one thing happen, when it can. -/
def act (v : Execution) : Deed → Option Execution
  | .cancel => some { v with cancelled := true }
  | .advance notices =>
    if notices && !v.cancelled then none
    else (v.drift.advance v.now notices).map fun drift => { v with drift }
  | .read reading => if v.drift.isReading then some (v.hear reading) else none
  | .pass later => if v.now ≤ later then some { v with now := later } else none

/-- A controller that was just set up, under a token. -/
def start (applied : Defaults) (resync : Duration) (cancelled : Bool) (now : Nat) : Execution :=
  ⟨.new applied resync, cancelled, now, []⟩

/-- The points that a controller of some defaults comes to. -/
inductive Reachable (applied : Defaults) (resync : Duration) : Execution → Prop
  | start (cancelled : Bool) (now : Nat) :
      Reachable applied resync (start applied resync cancelled now)
  | act {v v' : Execution} (h : Reachable applied resync v) (deed : Deed)
      (hact : v.act deed = some v') : Reachable applied resync v'

/-- Lets one thing happen after another. -/
def play (v : Execution) : List Deed → Option Execution
  | [] => some v
  | deed :: rest => (v.act deed).bind (play · rest)

variable {applied : Defaults} {resync : Duration} {v v' : Execution} {deed : Deed}

/-- What comes of some deeds is reached if their start was. -/
theorem Reachable.play (h : Reachable applied resync v) {deeds : List Deed}
    (hplay : v.play deeds = some v') : Reachable applied resync v' := by
  induction deeds generalizing v with
  | nil =>
    cases hplay
    exact h
  | cons deed rest ih =>
    obtain ⟨next, hact, hrest⟩ := Option.bind_eq_some_iff.mp hplay
    exact ih (.act h deed hact) hrest

/-- Deeds may be done in two parts. -/
theorem play_append {first second : List Deed} (h : v.play first = some v') :
    v.play (first ++ second) = v'.play second := by
  induction first generalizing v with
  | nil =>
    cases h
    rfl
  | cons deed rest ih =>
    obtain ⟨next, hact, hrest⟩ := Option.bind_eq_some_iff.mp h
    simpa [Execution.play, hact] using ih hrest

/-! ### What every deed keeps -/

/-- What every deed keeps. -/
structure Kept (applied : Defaults) (resync : Duration) (v : Execution) : Prop where
  applied_eq : v.drift.applied = applied
  resync_eq : v.drift.resync = resync
  /-- With a period a controller does not break down. -/
  sturdy : v.drift.stage = .brokenDown → resync.nanos = 0
  ended : v.drift.stage = .ended → v.cancelled = true
  recorded : Recorded applied v.drift.reported v.rounds

/-- A controller that starts has nothing to keep yet. -/
theorem kept_start (cancelled : Bool) (now : Nat) :
    (start applied resync cancelled now).Kept applied resync where
  applied_eq := rfl
  resync_eq := rfl
  sturdy hbroken := by cases hbroken
  ended hended := by cases hended
  recorded := recorded_nil applied

/-- A controller that takes what was read waits for its next tick, with what it has told and
reported by then. -/
theorem exists_heard (h : v.drift.isReading = true) (reading : Defaults.Reading) :
    ∃ ticker reported told,
      v.hear reading = { v with
        drift := { v.drift with stage := .waiting ticker, reported := reported }
        rounds := v.rounds ++ [⟨reading, told⟩] }
      ∧ Outcome { v.drift with stage := .waiting ticker } reading.result
        ({ v.drift with stage := .waiting ticker, reported := reported }, told) := by
  obtain ⟨ticker, reported, told, hanswer, houtcome⟩ := exists_answer h reading.result
  exact ⟨ticker, reported, told, by rw [hear, hanswer], houtcome⟩

/-- A round keeps it. -/
theorem Kept.hear (h : v.Kept applied resync) (hreading : v.drift.isReading = true)
    (reading : Defaults.Reading) : (v.hear reading).Kept applied resync := by
  obtain ⟨ticker, reported, told, hheard, houtcome⟩ := exists_heard hreading reading
  obtain rfl := h.applied_eq
  rw [hheard]
  exact ⟨rfl, h.resync_eq, nofun, nofun,
    Recorded.concat (d := { v.drift with stage := .waiting ticker }) h.recorded houtcome⟩

/-- Every deed keeps it. -/
theorem Kept.act (h : v.Kept applied resync) (hact : v.act deed = some v') :
    v'.Kept applied resync := by
  cases deed with
  | cancel =>
    cases hact
    exact ⟨h.applied_eq, h.resync_eq, h.sturdy, fun _ => rfl, h.recorded⟩
  | advance notices =>
    simp only [Execution.act] at hact
    split at hact
    · cases hact
    · rename_i hunseen
      obtain ⟨drift, hadvance, rfl⟩ := Option.map_eq_some_iff.mp hact
      obtain ⟨stage, rfl, -, hbroken, hended⟩ := exists_advance hadvance
      refine ⟨h.applied_eq, h.resync_eq, fun hstage => h.resync_eq ▸ hbroken hstage, ?_,
        h.recorded⟩
      intro hstage
      simpa [hended hstage] using hunseen
  -- only a reading adds a round; every other deed leaves the rounds alone
  | read reading =>
    simp only [Execution.act] at hact
    split at hact
    · rename_i hreading
      cases hact
      exact h.hear hreading reading
    · cases hact
  | pass later =>
    simp only [Execution.act] at hact
    split at hact <;> cases hact
    exact ⟨h.applied_eq, h.resync_eq, h.sturdy, h.ended, h.recorded⟩

/-- At any time a controller keeps what was reported last. -/
theorem Reachable.kept (h : Reachable applied resync v) : v.Kept applied resync := by
  induction h with
  | start cancelled now => exact kept_start cancelled now
  | act _ deed hact ih => exact ih.act hact

/-! ### The rounds go on -/

/-- A controller that waits reads at its next tick. -/
theorem exists_tick {ticker : Ticker} (hstage : v.drift.stage = .waiting ticker) :
    ∃ deeds v', v.play deeds = some v' ∧ v'.rounds = v.rounds ∧ v'.drift.isReading = true := by
  have hdue : ticker.isDue (max v.now (Clock.ring ticker.next)) = true := by
    simp [Ticker.isDue, Clock.reached]
  refine ⟨[.pass (max v.now (Clock.ring ticker.next)), .advance false],
    { v with
      now := max v.now (Clock.ring ticker.next)
      drift := { v.drift with
        stage := .reading (ticker.take (max v.now (Clock.ring ticker.next))) } }, ?_, rfl, rfl⟩
  simp [Execution.play, Execution.act, Drift.advance, hstage, hdue]

/-- A controller that has not come to an end gets to its next round. -/
theorem Kept.exists_isReading (h : v.Kept applied resync) (hresync : 0 < resync.nanos)
    (hon : v.drift.ending = none) :
    ∃ deeds v', v.play deeds = some v' ∧ v'.rounds = v.rounds ∧ v'.drift.isReading = true := by
  cases hstage : v.drift.stage with
  | fresh =>
    -- the first tick is taken at once, without a round
    have hstart : v.act (.advance false) = some { v with
        drift := { v.drift with stage := .waiting (Ticker.take ⟨resync, v.now⟩ v.now) } } := by
      simp [Execution.act, Drift.advance, hstage, Drift.start, Ticker.start, h.resync_eq,
        Nat.ne_of_gt hresync]
    obtain ⟨deeds, v', hplay, hrounds, hreading⟩ := exists_tick (v := { v with
        drift := { v.drift with stage := .waiting (Ticker.take ⟨resync, v.now⟩ v.now) } }) rfl
    exact ⟨.advance false :: deeds, v', by simpa [Execution.play, hstart] using hplay, hrounds,
      hreading⟩
  | waiting ticker => exact exists_tick hstage
  | reading ticker => exact ⟨[], v, rfl, rfl, by simp [isReading, hstage]⟩
  | ended => simp [ending, hstage] at hon
  | brokenDown => exact absurd (h.sturdy hstage) (Nat.ne_of_gt hresync)

/-- Any rounds can follow as long as a controller has not come to an end. -/
theorem Reachable.exists_rounds (h : Reachable applied resync v) (hresync : 0 < resync.nanos)
    (hon : v.drift.ending = none) (readings : List Defaults.Reading) :
    ∃ deeds v' more, v.play deeds = some v' ∧ v'.rounds = v.rounds ++ more
      ∧ more.map Round.reading = readings := by
  -- on the readings: the task comes to its next reading, hears the first one, and is still on
  induction readings generalizing v with
  | nil => exact ⟨[], v, [], rfl, (List.append_nil _).symm, rfl⟩
  | cons reading rest ih =>
    obtain ⟨first, w, hfirst, hrounds, hreading⟩ := h.kept.exists_isReading hresync hon
    have hread : w.act (.read reading) = some (w.hear reading) := by
      simp [Execution.act, hreading]
    obtain ⟨ticker, reported, told, hheard, -⟩ := exists_heard hreading reading
    have hstill : (w.hear reading).drift.ending = none := by rw [hheard]; rfl
    obtain ⟨second, v', more, hsecond, hmore, hreadings⟩ :=
      ih (.act (h.play hfirst) _ hread) hstill
    refine ⟨first ++ .read reading :: second, v', ⟨reading, told⟩ :: more, ?_, ?_, ?_⟩
    · rw [play_append hfirst]
      simpa [Execution.play, hread] using hsecond
    · rw [hmore, hheard, hrounds, List.append_assoc]
      rfl
    · rw [List.map_cons, hreadings]

/-! ### What is told -/

/-- What a reading that fails leaves behind: that it was told, and nothing else. -/
theorem act_unreadable {reading : Defaults.Reading} {error : DefaultsError}
    (herror : reading.result = .error error) (hact : v.act (.read reading) = some v') :
    ∃ ticker, v' = { v with
      drift := { v.drift with stage := .waiting ticker }
      rounds := v.rounds ++ [⟨reading, [.unreadable error]⟩] } := by
  simp only [Execution.act] at hact
  split at hact
  · rename_i hreading
    cases hact
    obtain ⟨ticker, reported, told, hheard, houtcome⟩ := exists_heard hreading reading
    rw [herror] at houtcome
    cases houtcome
    exact ⟨ticker, hheard⟩
  · cases hact

/-- A controller with a period has not come to an end, unless its token is cancelled. -/
theorem Kept.ending_cases (h : v.Kept applied resync) (hresync : 0 < resync.nanos) :
    v.drift.ending = none ∨ (v.drift.ending = some .done ∧ v.cancelled = true) := by
  unfold ending
  split
  · rename_i hstage
    exact .inr ⟨rfl, h.ended hstage⟩
  · rename_i hstage
    exact absurd (h.sturdy hstage) (Nat.ne_of_gt hresync)
  · exact .inl rfl

/-- What a drift controller has told, tells, and may still tell is exact. -/
structure IsExact (applied : Defaults) (v : Execution) : Prop where
  rounds : ∀ before round after, v.rounds = before ++ round :: after →
    Round.IsExact applied before round
  /-- No report has the names of the one before it, and the first one has some. -/
  changing : ([] :: Round.reports v.rounds).IsChain
    fun earlier later => ¬ ∀ name, name ∈ earlier ↔ name ∈ later
  /-- A reading that fails is told once and changes nothing else: the controller waits for its
  next tick. -/
  unreadable : ∀ reading error v', reading.result = .error error →
    v.act (.read reading) = some v' → ∃ ticker, v' = { v with
      drift := { v.drift with stage := .waiting ticker }
      rounds := v.rounds ++ [⟨reading, [.unreadable error]⟩] }
  /-- Only a cancellation ends the controller, -/
  ending : v.drift.ending = none ∨ (v.drift.ending = some .done ∧ v.cancelled = true)
  /-- and before that any rounds may follow. -/
  goesOn : v.drift.ending = none → ∀ readings, ∃ deeds v' more, v.play deeds = some v'
    ∧ v'.rounds = v.rounds ++ more ∧ more.map Round.reading = readings

/-- Whatever is read and whenever, a drift controller with a period reports the definitions
that differ in every round in which these are other ones than before, and in no other. -/
theorem Reachable.reports_exactly (h : Reachable applied resync v)
    (hresync : 0 < resync.nanos) : v.IsExact applied := by
  have hkept := h.kept
  exact ⟨hkept.recorded.exact, hkept.recorded.changing, fun reading error v' => act_unreadable,
    hkept.ending_cases hresync, h.exists_rounds hresync⟩

/-- Defaults with one definition. -/
def single (name : String) (n : Int) : Defaults := .ofList [(name, .number (.integer n))]

/-- The controller reads at its tick after so many milliseconds. -/
def roundAt (millis : Nat) (reading : Defaults.Reading) : List Deed :=
  [.pass (millis * 1000000), .advance false, .read reading]

/-- A definition is changed and stays so, cannot be read twice, is missing, and is what it was
again; then the token is cancelled. That it is missing is no news, since it differed before. -/
def wavering : List Deed :=
  [.advance false] ++ roundAt 30 (.returned (.ok (single "a" 2)))
    ++ roundAt 60 (.returned (.ok (single "a" 2)))
    ++ roundAt 90 (.panicked ⟨7, "populate"⟩)
    ++ roundAt 120 (.returned (.error (.missing "/defaults")))
    ++ roundAt 150 (.returned (.ok .empty))
    ++ roundAt 180 (.returned (.ok (single "a" 1)))
    ++ [.cancel, .advance true]

/-- Six rounds of one controller: a change, the same change again, two rounds that cannot be read,
a difference in the same name once more, and none. Drift is reported in the first of them, and its
end in the last. -/
theorem reports_exactly_wavering : ∃ v,
    (start (single "a" 1) (.ofMillis 30) false 0).play wavering = some v
      ∧ v.rounds.map Round.told = [[.changed ["a"]], [],
        [.unreadable (.interrupted "task 7 panicked with message \"populate\"")],
        [.unreadable (.missing "/defaults")], [], [.backInSync]]
      ∧ v.drift.ending = some .done ∧ v.IsExact (single "a" 1) := by
  have hseen : ((start (single "a" 1) (.ofMillis 30) false 0).play wavering).map
      (fun v => (v.rounds.map Round.told, v.drift.ending))
        = some ([[.changed ["a"]], [],
          [.unreadable (.interrupted "task 7 panicked with message \"populate\"")],
          [.unreadable (.missing "/defaults")], [], [.backInSync]], some .done) := by
    decide +kernel
  obtain ⟨v, hplay, hv⟩ := Option.map_eq_some_iff.mp hseen
  obtain ⟨htold, hending⟩ := Prod.mk.inj hv
  have hreachable := Reachable.play (.start false 0) hplay
  exact ⟨v, hplay, htold, hending, Reachable.reports_exactly hreachable (by decide)⟩

end Execution

end Tenure.Control.Drift
