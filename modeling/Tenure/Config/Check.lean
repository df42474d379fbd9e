import Tenure.Config.Basic
import Tenure.Leader.Timing
import Tenure.SocketAddress
import Tenure.Text.Blank
import Tenure.Text.Quoted
import Tenure.Verbosity

/-!
# `Tenure.Config.Check`: which settings can be worked with

A configuration is accepted when no setting has a problem. All problems are
listed, in the order of the settings. A retry period too long to be stretched
leaves the check without an answer.
-/

set_option autoImplicit false

namespace Tenure

namespace Config

/-- What is wrong with a setting. -/
inductive Problem
  | blankNamespace
  | blankLockName
  | timing (error : Leader.TimingError)
  | noLockDirectory
  | zeroReportInterval
  | zeroResync
  | verbosity (error : VerbosityError)
  | healthAddress (text : String)
  | metricsAddress (text : String)
  | halfTls
deriving Repr, DecidableEq

namespace Problem

/-- The setting that has the problem. -/
def field : Problem → String
  | blankNamespace => "leader_election.namespace"
  | blankLockName => "leader_election.lock_name"
  | timing _ => "leader_election"
  | noLockDirectory => "store.lock_dir"
  | zeroReportInterval => "status.report_interval_secs"
  | zeroResync => "controller.resync_secs"
  | verbosity _ => "observability.log_level"
  | healthAddress _ => "observability.health_address"
  | metricsAddress _ => "observability.metrics_address"
  | halfTls => "observability.tls"

def message : Problem → String
  | blankNamespace => "must not be empty"
  | blankLockName => "must not be empty"
  | timing e => e.message
  | noLockDirectory => "required by the file store"
  | zeroReportInterval => "must be greater than zero"
  | zeroResync => "must be greater than zero"
  | verbosity e => e.message
  | healthAddress text => "invalid socket address " ++ Text.quoted text
  | metricsAddress text => "invalid socket address " ++ Text.quoted text
  | halfTls => "cert and key must be given together"

end Problem

/-- One text for all problems. -/
def problemsText (problems : List Problem) : String :=
  "Validation failed: " ++ ", ".intercalate (problems.map fun p => s!"{p.field}: {p.message}")

/-- The timing of an election. -/
def Election.timing (e : Election) : Except Leader.TimingError Leader.Timing :=
  Leader.Timing.check (.ofSecs e.leaseSecs) (.ofSecs e.renewDeadlineSecs)
    (.ofSecs e.retryPeriodSecs)

/-- A problem, if a condition holds. -/
def problemIf (condition : Bool) (problem : Problem) : List Problem :=
  if condition then [problem] else []

/-- The problem of a timing that is refused, if there is one. -/
def timingProblems : Except Leader.TimingError Leader.Timing → List Problem
  | .ok _ => []
  | .error error => [.timing error]

/-- The problem of a text that names no verbosity. -/
def verbosityProblems (o : Observation) : List Problem :=
  match Verbosity.ofText o.verbosity with
  | .ok _ => []
  | .error error => [.verbosity error]

/-- Whether a pair of files has one name only. -/
def TlsPair.isHalf (t : TlsPair) : Bool := t.certificate.isEmpty != t.key.isEmpty

/-- All problems, in the order of the settings. -/
def problems (c : Config) : List Problem :=
  problemIf (Text.isBlankText c.election.lock.space) .blankNamespace
    ++ problemIf (Text.isBlankText c.election.lock.name) .blankLockName
    ++ timingProblems c.election.timing
    ++ problemIf (c.coordination.kind == .file && c.coordination.lockDirectory.isNone)
      .noLockDirectory
    ++ problemIf (c.reporting.intervalSecs == 0) .zeroReportInterval
    ++ problemIf (c.resyncSecs == 0) .zeroResync
    ++ verbosityProblems c.observation
    ++ problemIf (SocketAddress.parse? c.observation.healthAddress).isNone
      (.healthAddress c.observation.healthAddress)
    ++ problemIf (c.observation.metricsEnabled
        && (SocketAddress.parse? c.observation.metricsAddress).isNone)
      (.metricsAddress c.observation.metricsAddress)
    ++ problemIf (c.observation.tls.any TlsPair.isHalf) .halfTls

/-- How a check has ended. -/
inductive Verdict
  | accepted
  | rejected (problems : List Problem)
  /-- The retry period cannot be stretched. -/
  | overflow (retry : Duration)
deriving Repr, DecidableEq

/-- The verdict on settings with a timing and some problems. -/
def Verdict.on (timing : Except Leader.TimingError Leader.Timing) (problems : List Problem) :
    Verdict :=
  match timing, problems with
  | .error (.retryOutOfRange retry), _ => overflow retry
  | _, [] => accepted
  | _, problems => rejected problems

/-- Checks all settings. -/
def check (c : Config) : Verdict := .on c.election.timing c.problems

end Config

end Tenure
