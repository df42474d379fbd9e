import Tenure.Config.Document
import Tenure.Lifecycle.Startup
import Tenure.Proofs.Control.Drift
import Tenure.Proofs.Status.Publication

/-!
# `Tenure.Proofs.Config.Acceptance`: accepted settings

The check of a configuration and the start of a process look at the same settings, each in its
own way. `Violates` says what is wrong with a setting, `Startable` what an accepted
configuration can do.

* `mem_problems`: the check lists exactly what is wrong.
* `problems_sublist`: it does so in the order of the settings, for each setting once.
* `check_exact`: a configuration is accepted when nothing is wrong with it, and then a process
  can be made of it. The files of a certificate and its key are the exception. A pair without
  any name is accepted, but no process starts with it if it offers metrics.
-/

set_option autoImplicit false

namespace Tenure.Config

open Leader (TimingError Timing)

/-! ### What is wrong -/

/-- The first way in which the durations of an election are no timing. -/
inductive Election.Mistimed (e : Election) : TimingError → Prop
  | zeroLease (hlease : e.leaseSecs = 0) : Mistimed e .zeroLease
  | zeroRenewDeadline (hlease : e.leaseSecs ≠ 0) (hrenew : e.renewDeadlineSecs = 0) :
      Mistimed e .zeroRenewDeadline
  | zeroRetryPeriod (hlease : e.leaseSecs ≠ 0) (hrenew : e.renewDeadlineSecs ≠ 0)
      (hretry : e.retryPeriodSecs = 0) : Mistimed e .zeroRetryPeriod
  | leaseNotAboveRenew (hlease : e.leaseSecs ≠ 0) (hrenew : e.renewDeadlineSecs ≠ 0)
      (hretry : e.retryPeriodSecs ≠ 0) (hle : e.leaseSecs ≤ e.renewDeadlineSecs) :
      Mistimed e (.leaseNotAboveRenew (.ofSecs e.leaseSecs) (.ofSecs e.renewDeadlineSecs))
  /-- The retry period cannot be stretched. -/
  | retryOutOfRange (hrenew : e.renewDeadlineSecs ≠ 0) (hretry : e.retryPeriodSecs ≠ 0)
      (hlt : e.renewDeadlineSecs < e.leaseSecs)
      (hscale : (Duration.ofSecs e.retryPeriodSecs).scale Timing.jitterFactor = none) :
      Mistimed e (.retryOutOfRange (.ofSecs e.retryPeriodSecs))
  | renewNotAboveRetry (hrenew : e.renewDeadlineSecs ≠ 0) (hretry : e.retryPeriodSecs ≠ 0)
      (hlt : e.renewDeadlineSecs < e.leaseSecs) {stretched : Duration}
      (hscale : (Duration.ofSecs e.retryPeriodSecs).scale Timing.jitterFactor = some stretched)
      (hle : Duration.ofSecs e.renewDeadlineSecs ≤ stretched) :
      Mistimed e (.renewNotAboveRetry (.ofSecs e.renewDeadlineSecs) (.ofSecs e.retryPeriodSecs))

/-- What is wrong with a configuration. -/
inductive Violates (c : Config) : Problem → Prop
  | blankNamespace (hblank : Text.isBlankText c.election.lock.space = true) :
      Violates c .blankNamespace
  | blankLockName (hblank : Text.isBlankText c.election.lock.name = true) :
      Violates c .blankLockName
  | timing {error : TimingError} (hmistimed : c.election.Mistimed error) :
      Violates c (.timing error)
  | noLockDirectory (hfile : c.coordination.kind = .file)
      (hnone : c.coordination.lockDirectory = none) : Violates c .noLockDirectory
  | zeroReportInterval (hzero : c.reporting.intervalSecs = 0) : Violates c .zeroReportInterval
  | zeroResync (hzero : c.resyncSecs = 0) : Violates c .zeroResync
  | verbosity {error : VerbosityError}
      (herror : Verbosity.ofText c.observation.verbosity = .error error) :
      Violates c (.verbosity error)
  | healthAddress (hnone : SocketAddress.parse? c.observation.healthAddress = none) :
      Violates c (.healthAddress c.observation.healthAddress)
  | metricsAddress (henabled : c.observation.metricsEnabled = true)
      (hnone : SocketAddress.parse? c.observation.metricsAddress = none) :
      Violates c (.metricsAddress c.observation.metricsAddress)
  /-- One of the two files has a name and the other one has none. -/
  | halfTls {pair : TlsPair} (hpair : c.observation.tls = some pair)
      (hhalf : ¬ (pair.certificate = "" ↔ pair.key = "")) : Violates c .halfTls

/-- The settings, in the order in which they are checked. -/
def checkedSettings : List String :=
  ["leader_election.namespace", "leader_election.lock_name", "leader_election", "store.lock_dir",
    "status.report_interval_secs", "controller.resync_secs", "observability.log_level",
    "observability.health_address", "observability.metrics_address", "observability.tls"]

/-- No setting stands twice among those that are checked. -/
theorem nodup_checkedSettings : checkedSettings.Nodup := by decide

variable {c : Config} {problem other : Problem} {problems : List Problem} {condition : Bool}

/-- Only no seconds take no time. -/
theorem ofSecs_nanos_eq_zero_iff {secs : Nat} : (Duration.ofSecs secs).nanos = 0 ↔ secs = 0 := by
  simp only [Duration.ofSecs]
  omega

/-- Durations are compared as their seconds are. -/
theorem ofSecs_le_iff {first second : Nat} :
    Duration.ofSecs first ≤ Duration.ofSecs second ↔ first ≤ second := by
  show first * 1000000000 ≤ second * 1000000000 ↔ first ≤ second
  omega

/-- The timing of an election is refused with an error exactly if the error applies to its
settings. -/
theorem Election.timing_error_iff {e : Election} {error : TimingError} :
    e.timing = .error error ↔ e.Mistimed error := by
  unfold timing Timing.check
  -- each test is made when those before it have been passed
  simp only [ofSecs_nanos_eq_zero_iff, ofSecs_le_iff]
  constructor
  · intro h
    split at h
    · cases h
      exact .zeroLease ‹_›
    split at h
    · cases h
      exact .zeroRenewDeadline ‹_› ‹_›
    split at h
    · cases h
      exact .zeroRetryPeriod ‹_› ‹_› ‹_›
    split at h
    · cases h
      exact .leaseNotAboveRenew ‹_› ‹_› ‹_› ‹_›
    rename_i hrenew hretry hlt
    split at h
    · cases h
      exact .retryOutOfRange hrenew hretry (Nat.lt_of_not_le hlt) ‹_›
    split at h
    · cases h
      exact .renewNotAboveRetry hrenew hretry (Nat.lt_of_not_le hlt) ‹_› ‹_›
    · cases h
  · intro h
    cases h with
    | zeroLease hlease => rw [if_pos hlease]
    | zeroRenewDeadline hlease hrenew => rw [if_neg hlease, if_pos hrenew]
    | zeroRetryPeriod hlease hrenew hretry => rw [if_neg hlease, if_neg hrenew, if_pos hretry]
    | leaseNotAboveRenew hlease hrenew hretry hle =>
      rw [if_neg hlease, if_neg hrenew, if_neg hretry, if_pos hle]
    | retryOutOfRange hrenew hretry hlt hscale =>
      rw [if_neg (by omega), if_neg hrenew, if_neg hretry, if_neg (by omega), hscale]
    | renewNotAboveRetry hrenew hretry hlt hscale hle =>
      rw [if_neg (by omega), if_neg hrenew, if_neg hretry, if_neg (by omega), hscale]
      simp only [if_pos hle]

/-! ### What the check lists -/

/-- A problem that is named under a condition is named exactly if the condition holds. -/
theorem mem_problemIf :
    problem ∈ problemIf condition other ↔ condition = true ∧ problem = other := by
  cases condition <;> simp [problemIf]

/-- The problem with a timing is the error that it is refused with. -/
theorem mem_timingProblems {timing : Except TimingError Timing} :
    problem ∈ timingProblems timing ↔ ∃ error, timing = .error error ∧ problem = .timing error := by
  cases timing <;> simp [timingProblems]

/-- The problem with a verbosity is the error that its text is refused with. -/
theorem mem_verbosityProblems {o : Observation} :
    problem ∈ verbosityProblems o
      ↔ ∃ error, Verbosity.ofText o.verbosity = .error error ∧ problem = .verbosity error := by
  unfold verbosityProblems
  cases Verbosity.ofText o.verbosity <;> simp

/-- A pair is half given if one of its paths is empty and the other one is not. -/
theorem TlsPair.isHalf_iff {pair : TlsPair} :
    pair.isHalf = true ↔ ¬ (pair.certificate = "" ↔ pair.key = "") := by
  rw [isHalf, bne_iff_ne, ne_eq, Bool.eq_iff_iff, String.isEmpty_iff, String.isEmpty_iff]

/-- The check lists exactly what is wrong. -/
theorem mem_problems : problem ∈ c.problems ↔ c.Violates problem := by
  simp only [problems, List.mem_append, mem_problemIf, mem_timingProblems, mem_verbosityProblems,
    Election.timing_error_iff, Bool.and_eq_true, beq_iff_eq, Option.isNone_iff_eq_none,
    Option.any_eq_true, TlsPair.isHalf_iff, or_assoc]
  -- the list is laid open into one case for each problem, in the order of the checks
  constructor
  · rintro (⟨hblank, rfl⟩ | ⟨hblank, rfl⟩ | ⟨error, hmistimed, rfl⟩ | ⟨⟨hfile, hnone⟩, rfl⟩
      | ⟨hzero, rfl⟩ | ⟨hzero, rfl⟩ | ⟨error, herror, rfl⟩ | ⟨hnone, rfl⟩
      | ⟨⟨henabled, hnone⟩, rfl⟩ | ⟨⟨pair, hpair, hhalf⟩, rfl⟩)
    · exact .blankNamespace hblank
    · exact .blankLockName hblank
    · exact .timing hmistimed
    · exact .noLockDirectory hfile hnone
    · exact .zeroReportInterval hzero
    · exact .zeroResync hzero
    · exact .verbosity herror
    · exact .healthAddress hnone
    · exact .metricsAddress henabled hnone
    · exact .halfTls hpair hhalf
  · intro h
    cases h with
    | blankNamespace hblank => simp [hblank]
    | blankLockName hblank => simp [hblank]
    | timing hmistimed => simp [hmistimed]
    | noLockDirectory hfile hnone => simp [hfile, hnone]
    | zeroReportInterval hzero => simp [hzero]
    | zeroResync hzero => simp [hzero]
    | verbosity herror => simp [herror]
    | healthAddress hnone => simp [hnone]
    | metricsAddress henabled hnone => simp [henabled, hnone]
    | halfTls hpair hhalf => simp [hpair, hhalf]

/-- Of the problems that are looked for at one setting at most one is listed. -/
theorem problemIf_sublist : ((problemIf condition problem).map Problem.field).Sublist
    [problem.field] := by
  cases condition with
  | false => exact List.nil_sublist _
  | true => exact List.Sublist.refl _

/-- What is wrong with a timing is said under one name, at most once. -/
theorem timingProblems_sublist (timing : Except TimingError Timing) :
    ((timingProblems timing).map Problem.field).Sublist ["leader_election"] := by
  cases timing with
  | ok timing => exact List.nil_sublist _
  | error error => exact List.Sublist.refl _

/-- What is wrong with a verbosity is said under one name, at most once. -/
theorem verbosityProblems_sublist (o : Observation) :
    ((verbosityProblems o).map Problem.field).Sublist ["observability.log_level"] := by
  unfold verbosityProblems
  cases Verbosity.ofText o.verbosity with
  | ok verbosity => exact List.nil_sublist _
  | error error => exact List.Sublist.refl _

/-- The problems are listed in the order of the settings, each setting once. -/
theorem problems_sublist (c : Config) : (c.problems.map Problem.field).Sublist checkedSettings := by
  simp only [problems, List.map_append]
  exact (((((((((problemIf_sublist.append problemIf_sublist).append
    (timingProblems_sublist _)).append problemIf_sublist).append problemIf_sublist).append
    problemIf_sublist).append (verbosityProblems_sublist _)).append problemIf_sublist).append
    problemIf_sublist).append problemIf_sublist)

/-! ### The verdict -/

/-- Settings are accepted exactly if no problem was found and the retry period can be stretched at
all. -/
theorem Verdict.on_eq_accepted_iff {timing : Except TimingError Timing} :
    Verdict.on timing problems = .accepted
      ↔ (∀ retry, timing ≠ .error (.retryOutOfRange retry)) ∧ problems = [] := by
  unfold on
  split
  · rename_i retry
    exact iff_of_false nofun fun h => h.1 retry rfl
  · rename_i hfits
    exact iff_of_true rfl ⟨hfits, rfl⟩
  · rename_i hsome
    exact iff_of_false nofun fun h => hsome h.2

/-- The only duration that is too long to go on with is a retry period that cannot be stretched. -/
theorem Verdict.on_eq_overflow_iff {timing : Except TimingError Timing} {retry : Duration} :
    Verdict.on timing problems = .overflow retry ↔ timing = .error (.retryOutOfRange retry) := by
  unfold on
  split
  · simp
  · rename_i hfits
    exact iff_of_false nofun (hfits retry)
  · rename_i hfits _
    exact iff_of_false nofun (hfits retry)

/-- Settings that are rejected are rejected for all problems that were found, and there are some. -/
theorem Verdict.eq_of_rejected {timing : Except TimingError Timing} {found : List Problem}
    (h : Verdict.on timing found = .rejected problems) : problems = found ∧ found ≠ [] := by
  unfold on at h
  split at h
  · cases h
  · cases h
  · rename_i hsome
    cases h
    exact ⟨rfl, hsome⟩

/-- A configuration is accepted when nothing is wrong with it. -/
theorem check_eq_accepted_iff : c.check = .accepted ↔ ∀ problem, ¬ c.Violates problem := by
  rw [check, Verdict.on_eq_accepted_iff, List.eq_nil_iff_forall_not_mem]
  simp only [mem_problems]
  -- a retry period that cannot be stretched is a problem as well
  refine ⟨And.right, fun h => ⟨fun retry htiming => ?_, h⟩⟩
  exact h _ (.timing (Election.timing_error_iff.mp htiming))

/-- There is no verdict when the retry period cannot be stretched. -/
theorem check_eq_overflow_iff {retry : Duration} :
    c.check = .overflow retry ↔ c.Violates (.timing (.retryOutOfRange retry)) := by
  rw [check, Verdict.on_eq_overflow_iff, Election.timing_error_iff]
  refine ⟨.timing, fun h => ?_⟩
  cases h with
  | timing hmistimed => exact hmistimed

/-! ### What an accepted configuration can do -/

/-- A pair without names is not there. -/
theorem loadPair_unnamed (files : FileTree) (key : String) :
    Tls.loadPair files "" key = .error (.missing "Certificate" "") := rfl

/-- When the addresses are in order, the servers fail because of the files of the pair only. -/
theorem servers_error_iff {files : FileTree} {error : StartupError}
    (hhealth : ∃ address, SocketAddress.parse? c.observation.healthAddress = some address)
    (hmetrics : c.observation.metricsEnabled = true →
      ∃ address, SocketAddress.parse? c.observation.metricsAddress = some address) :
    c.servers files = .error error ↔ c.observation.metricsEnabled = true
      ∧ ∃ pair e, c.observation.tls = some pair
        ∧ Tls.loadPair files pair.certificate pair.key = .error e ∧ error = .tls e := by
  obtain ⟨health, hhealth⟩ := hhealth
  simp only [servers, checkAddress, hhealth]
  -- the addresses are fine, so only the pair that the metrics server asks for can fail
  cases henabled : c.observation.metricsEnabled with
  | false =>
    refine iff_of_false (fun h => ?_) (by simp)
    cases h
  | true =>
    obtain ⟨metrics, hmetrics⟩ := hmetrics henabled
    rw [hmetrics]
    cases c.observation.tls with
    | none =>
      refine iff_of_false (fun h => ?_) (by simp)
      cases h
    | some pair =>
      cases hload : Tls.loadPair files pair.certificate pair.key with
      | ok _ =>
        refine iff_of_false (fun h => ?_) (by simp [hload])
        simp only [hload] at h
        cases h
      | error e =>
        simp only [hload]
        constructor
        · intro h
          cases h
          exact ⟨trivial, pair, e, rfl, hload, rfl⟩
        · rintro ⟨-, other, e', hother, hload', rfl⟩
          cases hother
          cases hload.symm.trans hload'
          rfl

/-- What an accepted configuration can do. -/
structure Startable (c : Config) : Prop where
  candidate : ∀ identity now, ∃ timing, c.election.timing = .ok timing
    ∧ c.candidate identity now = .ok (c.candidateWith identity now timing)
  store : ∀ files, (c.openStore files).2 ≠ .error .missingLockDirectory
  healthAddress : ∃ address, SocketAddress.parse? c.observation.healthAddress = some address
  metricsAddress : c.observation.metricsEnabled = true →
    ∃ address, SocketAddress.parse? c.observation.metricsAddress = some address
  /-- The reporter has an interval, and no session of it breaks down. -/
  reporter : ∀ identity, (c.profile identity).interval.nanos ≠ 0
    ∧ ∀ b, Status.Broadcast.Reachable (c.profile identity) b → b.session.stage ≠ .brokenDown
  /-- So has the controller that watches the defaults, and it does not break down either. -/
  drift : ∀ applied, ∃ drift, c.driftFactory applied = .ok drift ∧ drift.resync.nanos ≠ 0
    ∧ ∀ v, Control.Drift.Execution.Reachable drift.applied drift.resync v →
      v.drift.stage ≠ .brokenDown
  verbosity : ∃ verbosity, Verbosity.ofText c.observation.verbosity = .ok verbosity
  /-- The servers fail because of the files of the pair only. -/
  servers : ∀ files error, c.servers files = .error error →
    ∃ pair e, c.observation.tls = some pair
      ∧ Tls.loadPair files pair.certificate pair.key = .error e ∧ error = .tls e
  /-- Both files have names, or neither has one and the servers always fail. -/
  tls : c.observation.metricsEnabled = true → ∀ pair, c.observation.tls = some pair →
    (pair.certificate ≠ "" ∧ pair.key ≠ "")
      ∨ (pair = ⟨"", ""⟩
        ∧ ∀ files, c.servers files = .error (.tls (.missing "Certificate" "")))

/-- An accepted configuration can do all of it. -/
theorem startable_of_accepted (h : c.check = .accepted) : c.Startable := by
  have hnone := check_eq_accepted_iff.mp h
  have hhealth : ∃ address, SocketAddress.parse? c.observation.healthAddress = some address :=
    Option.ne_none_iff_exists'.mp fun hparse => hnone _ (.healthAddress hparse)
  have hmetrics (henabled : c.observation.metricsEnabled = true) :
      ∃ address, SocketAddress.parse? c.observation.metricsAddress = some address :=
    Option.ne_none_iff_exists'.mp fun hparse => hnone _ (.metricsAddress henabled hparse)
  have hinterval : (Duration.ofSecs c.reporting.intervalSecs).nanos ≠ 0 := fun hzero =>
    hnone _ (.zeroReportInterval (ofSecs_nanos_eq_zero_iff.mp hzero))
  have hresync : (Duration.ofSecs c.resyncSecs).nanos ≠ 0 := fun hzero =>
    hnone _ (.zeroResync (ofSecs_nanos_eq_zero_iff.mp hzero))
  refine ⟨fun identity now => ?_, fun files hstore => ?_, hhealth, hmetrics,
    fun identity => ⟨hinterval, fun b hreach hbroken => ?_⟩,
    fun applied => ⟨_, rfl, hresync, fun v hreach hbroken => ?_⟩, ?_,
    fun files error hservers => ?_, fun henabled pair hpair => ?_⟩
  · cases htiming : c.election.timing with
    | ok timing => exact ⟨timing, rfl, by rw [candidate, htiming]; rfl⟩
    | error error => exact absurd (.timing (Election.timing_error_iff.mp htiming)) (hnone _)
  · refine hnone .noLockDirectory ?_
    unfold openStore at hstore
    split at hstore
    · cases hstore
    · exact .noLockDirectory ‹_› ‹_›
    · split at hstore <;> cases hstore
  · exact hinterval (hreach.kept.sturdy hbroken)
  · exact hresync (hreach.kept.sturdy hbroken)
  · cases hverbosity : Verbosity.ofText c.observation.verbosity with
    | ok verbosity => exact ⟨verbosity, rfl⟩
    | error error => exact absurd (.verbosity hverbosity) (hnone _)
  · exact ((servers_error_iff hhealth hmetrics).mp hservers).2
  · have hboth : pair.certificate = "" ↔ pair.key = "" := by
      by_contra hhalf
      exact hnone _ (.halfTls hpair hhalf)
    by_cases hempty : pair.certificate = ""
    · obtain ⟨certificate, key⟩ := pair
      obtain rfl : certificate = "" := hempty
      obtain rfl : key = "" := hboth.mp rfl
      -- the check sees no half of a pair here, but to start is to read the file without a name
      refine .inr ⟨rfl, fun files => ?_⟩
      exact (servers_error_iff hhealth hmetrics).mpr
        ⟨henabled, _, _, hpair, loadPair_unnamed files "", rfl⟩
    · exact .inl ⟨hempty, fun hkey => hempty (hboth.mpr hkey)⟩

/-- A configuration is accepted when nothing is wrong with it, and a process can be made of it
then, unless it offers metrics with a pair of files that have no names. The problems of one that
is rejected are exactly what is wrong with it, each once and in the order of the settings. -/
theorem check_exact (c : Config) :
    (c.check = .accepted ↔ ∀ problem, ¬ c.Violates problem)
      ∧ (∀ retry, c.check = .overflow retry ↔ c.Violates (.timing (.retryOutOfRange retry)))
      ∧ (c.check = .accepted → c.Startable)
      ∧ ∀ problems, c.check = .rejected problems →
        problems ≠ [] ∧ (∀ problem, problem ∈ problems ↔ c.Violates problem)
          ∧ (problems.map Problem.field).Sublist checkedSettings
          ∧ (problems.map Problem.field).Nodup := by
  refine ⟨check_eq_accepted_iff, fun _ => check_eq_overflow_iff, startable_of_accepted,
    fun problems hrejected => ?_⟩
  rw [check] at hrejected
  obtain ⟨rfl, hne⟩ := Verdict.eq_of_rejected hrejected
  exact ⟨hne, fun problem => mem_problems, problems_sublist c,
    (problems_sublist c).nodup nodup_checkedSettings⟩

/-! ### A configuration with everything wrong, and one without names -/

/-- Blank, missing and unreadable settings, and a certificate without a key. -/
def crossed : Config := { standard with
  election := { Election.standard with lock := ⟨" ", "operator-manager-lock"⟩ }
  coordination := ⟨.file, none⟩
  observation := { Observation.standard with
    verbosity := "loud"
    healthAddress := "nope"
    tls := some ⟨"cert.pem", ""⟩ } }

/-- What holds when nothing is set is accepted, and the problems of the other one are listed. -/
theorem check_exact_crossed :
    standard.Startable
      ∧ (crossed.problems.map Problem.field = ["leader_election.namespace", "store.lock_dir",
        "observability.log_level", "observability.health_address", "observability.tls"])
      ∧ crossed.Violates .halfTls := by
  have hstandard := (check_exact standard).2.2.1 (by decide +kernel)
  have hcrossed : crossed.check = .rejected crossed.problems := by decide +kernel
  obtain ⟨-, hmem, -, -⟩ := (check_exact crossed).2.2.2 crossed.problems hcrossed
  exact ⟨hstandard, by decide +kernel, (hmem _).mp (by decide +kernel)⟩

/-- A pair of files without names. -/
def nameless : Config :=
  { standard with observation := { Observation.standard with tls := some ⟨"", ""⟩ } }

/-- A document that names the table of the pair, and nothing else, is accepted. No process can
start with it. -/
theorem accepted_nameless :
    parse? "[observability.tls]\n" = some nameless ∧ nameless.check = .accepted
      ∧ (∀ files, nameless.servers files = .error (.tls (.missing "Certificate" "")))
      ∧ ¬ ∀ c : Config, c.check = .accepted → c.observation.metricsEnabled = true →
        ∀ pair, c.observation.tls = some pair → pair.certificate ≠ "" ∧ pair.key ≠ "" := by
  have haccepted : nameless.check = .accepted := by decide +kernel
  refine ⟨by decide +kernel, haccepted, fun files => ?_, fun h => ?_⟩
  · rcases (startable_of_accepted haccepted).tls rfl _ rfl with ⟨hnamed, -⟩ | ⟨-, hservers⟩
    · exact absurd rfl hnamed
    · exact hservers files
  · exact (h nameless haccepted rfl _ rfl).1 rfl

end Tenure.Config
