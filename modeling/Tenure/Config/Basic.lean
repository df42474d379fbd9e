import Tenure.Record.Basic
import Tenure.Status.Document

/-!
# `Tenure.Config.Basic`: what a process is told

The settings of a process: how it competes for leadership, where the lock is
kept, what it reports, where its defaults come from, how often they are looked
at again, and how it can be observed. Every setting has a value of its own, so
nothing has to be set.
-/

set_option autoImplicit false

namespace Tenure

namespace Config

/-- How a process competes for leadership. -/
structure Election where
  /-- The namespace and the name of the lock. -/
  lock : Key
  leaseSecs : Nat
  renewDeadlineSecs : Nat
  retryPeriodSecs : Nat
  /-- Whether the lock is given up when leadership ends. -/
  releaseOnCancel : Bool
  /-- Whether a process that has lost leadership competes again. -/
  rejoinAfterLoss : Bool
deriving Repr, DecidableEq, Inhabited

/-- Where the lock is kept: in a shared directory, or in the process itself. -/
inductive StoreKind
  | file
  | memory
deriving Repr, DecidableEq, Inhabited

/-- Where the lock is kept, and in which directory. -/
structure Coordination where
  kind : StoreKind
  lockDirectory : Option String
deriving Repr, DecidableEq, Inhabited

/-- What a process reports. An empty name means that it does not report. -/
structure Reporting where
  name : String
  directory : String
  intervalSecs : Nat
  releaseVersion : String
  relatedObjects : List Status.RelatedObject
deriving Repr, DecidableEq, Inhabited

/-- The form of log lines. -/
inductive LogFormat
  | pretty
  | json
deriving Repr, DecidableEq, Inhabited

/-- The files of a certificate and its key. -/
structure TlsPair where
  certificate : String
  key : String
deriving Repr, DecidableEq, Inhabited

/-- How a process can be observed. -/
structure Observation where
  verbosity : String
  logFormat : LogFormat
  healthAddress : String
  metricsEnabled : Bool
  metricsAddress : String
  tls : Option TlsPair
deriving Repr, DecidableEq, Inhabited

end Config

/-- The settings of a process. -/
structure Config where
  election : Config.Election
  coordination : Config.Coordination
  reporting : Config.Reporting
  /-- The directory of the default definitions. -/
  defaultsDirectory : Option String
  /-- How often the defaults are looked at again, in seconds. -/
  resyncSecs : Nat
  observation : Config.Observation
deriving Repr, DecidableEq, Inhabited

namespace Config

/-! ### What holds when nothing is set -/

def Election.standard : Election where
  lock := ⟨"default", "operator-manager-lock"⟩
  leaseSecs := 90
  renewDeadlineSecs := 60
  retryPeriodSecs := 30
  releaseOnCancel := true
  rejoinAfterLoss := false

def Coordination.standard : Coordination where
  kind := .file
  lockDirectory := some "/var/run/operator-manager/locks"

def Reporting.standard : Reporting where
  name := ""
  directory := "/var/run/operator-manager/status"
  intervalSecs := 60
  releaseVersion := ""
  relatedObjects := []

def Observation.standard : Observation where
  verbosity := "info"
  logFormat := .pretty
  healthAddress := "0.0.0.0:8080"
  metricsEnabled := true
  metricsAddress := "0.0.0.0:8081"
  tls := none

/-- The settings when nothing is set. -/
def standard : Config where
  election := .standard
  coordination := .standard
  reporting := .standard
  defaultsDirectory := none
  resyncSecs := 300
  observation := .standard

/-! ### Names -/

def StoreKind.name : StoreKind → String
  | file => "file"
  | memory => "memory"

def StoreKind.ofName? : String → Option StoreKind
  | "file" => some file
  | "memory" => some memory
  | _ => none

def LogFormat.name : LogFormat → String
  | pretty => "pretty"
  | json => "json"

def LogFormat.ofName? : String → Option LogFormat
  | "pretty" => some pretty
  | "json" => some json
  | _ => none

end Config

end Tenure
