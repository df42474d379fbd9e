import Tenure.Config.Basic
import Tenure.FileTree.Basic
import Tenure.Toml.Decode
import Tenure.Toml.Document

/-!
# `Tenure.Config.Document`: settings in a file

A configuration file is a TOML document with a table for each group of settings.
What it does not set keeps its standard value, and what is unknown is skipped.
-/

set_option autoImplicit false

namespace Tenure

namespace Config

open Toml

def Election.ofValue? (v : Value) : Option Election := do
  let f ← v.fields?
  let space ← f.decode 0 "namespace" Value.text? Election.standard.lock.space
  let name ← f.decode 1 "lock_name" Value.text? Election.standard.lock.name
  let lease ← f.decode 2 "lease_duration_secs" Value.nat? Election.standard.leaseSecs
  let renew ← f.decode 3 "renew_deadline_secs" Value.nat? Election.standard.renewDeadlineSecs
  let retry ← f.decode 4 "retry_period_secs" Value.nat? Election.standard.retryPeriodSecs
  let release ← f.decode 5 "release_on_cancel" Value.bool? Election.standard.releaseOnCancel
  let rejoin ← f.decode 6 "rejoin_after_loss" Value.bool? Election.standard.rejoinAfterLoss
  return ⟨⟨space, name⟩, lease, renew, retry, release, rejoin⟩

/-- A setting that may be absent but is there. -/
def present? {α : Type} (read : Value → Option α) (v : Value) : Option (Option α) :=
  (read v).map some

def Coordination.ofValue? (v : Value) : Option Coordination := do
  let f ← v.fields?
  let kind ← f.decode 0 "kind" (fun v => v.variant?.bind StoreKind.ofName?)
    Coordination.standard.kind
  let lockDirectory ← f.decode 1 "lock_dir" (present? Value.text?)
    Coordination.standard.lockDirectory
  return ⟨kind, lockDirectory⟩

def relatedObjectOfValue? (v : Value) : Option Status.RelatedObject := do
  let f ← v.fields?
  let group ← f.decode 0 "group" Value.text? ""
  let resource ← f.decode 1 "resource" Value.text? ""
  let space ← f.decode 2 "namespace" Value.text? ""
  let name ← f.decode 3 "name" Value.text? ""
  return ⟨group, resource, space, name⟩

def Reporting.ofValue? (v : Value) : Option Reporting := do
  let f ← v.fields?
  let name ← f.decode 0 "cluster_operator_name" Value.text? Reporting.standard.name
  let directory ← f.decode 1 "dir" Value.text? Reporting.standard.directory
  let interval ← f.decode 2 "report_interval_secs" Value.nat? Reporting.standard.intervalSecs
  let version ← f.decode 3 "release_version" Value.text? Reporting.standard.releaseVersion
  let related ← f.decode 4 "related_objects" (Value.list? relatedObjectOfValue?)
    Reporting.standard.relatedObjects
  return ⟨name, directory, interval, version, related⟩

/-- The directory of the default definitions. -/
def defaultsDirectoryOfValue? (v : Value) : Option (Option String) := do
  (← v.fields?).decode 0 "dir" (present? Value.text?) Config.standard.defaultsDirectory

/-- How often the defaults are looked at again. -/
def resyncOfValue? (v : Value) : Option Nat := do
  (← v.fields?).decode 0 "resync_secs" Value.nat? Config.standard.resyncSecs

def TlsPair.ofValue? (v : Value) : Option TlsPair := do
  let f ← v.fields?
  let certificate ← f.decode 0 "cert_path" Value.text? ""
  let key ← f.decode 1 "key_path" Value.text? ""
  return ⟨certificate, key⟩

def Observation.ofValue? (v : Value) : Option Observation := do
  let f ← v.fields?
  let verbosity ← f.decode 0 "log_level" Value.text? Observation.standard.verbosity
  let format ← f.decode 1 "log_format" (fun v => v.variant?.bind LogFormat.ofName?)
    Observation.standard.logFormat
  let health ← f.decode 2 "health_address" Value.text? Observation.standard.healthAddress
  let enabled ← f.decode 3 "metrics_enabled" Value.bool? Observation.standard.metricsEnabled
  let metrics ← f.decode 4 "metrics_address" Value.text? Observation.standard.metricsAddress
  let tls ← f.decode 5 "tls" (present? TlsPair.ofValue?) Observation.standard.tls
  return ⟨verbosity, format, health, enabled, metrics, tls⟩

/-- The settings in the members of a document. -/
def ofMembers? (members : List (String × Value)) : Option Config := do
  let f := Fields.named members
  let election ← f.decode 0 "leader_election" Election.ofValue? Config.standard.election
  let coordination ← f.decode 1 "store" Coordination.ofValue? Config.standard.coordination
  let reporting ← f.decode 2 "status" Reporting.ofValue? Config.standard.reporting
  let defaultsDirectory ← f.decode 3 "defaults" defaultsDirectoryOfValue?
    Config.standard.defaultsDirectory
  let resync ← f.decode 4 "controller" resyncOfValue? Config.standard.resyncSecs
  let observation ← f.decode 5 "observability" Observation.ofValue? Config.standard.observation
  return ⟨election, coordination, reporting, defaultsDirectory, resync, observation⟩

/-- The settings in a document. -/
def parse? (text : String) : Option Config := do ofMembers? (← Toml.parse text)

/-- Why there are no settings: the file cannot be read, or is no configuration. -/
inductive LoadError
  | unreadable (detail : String)
  | malformed (detail : String)
deriving Repr, DecidableEq

/-- The kind of an error, in one word. -/
def LoadError.kind : LoadError → String
  | unreadable _ => "Io"
  | malformed _ => "Parse"

def LoadError.message : LoadError → String
  | unreadable detail => "IO error: " ++ detail
  | malformed detail => "Parse error: " ++ detail

/-- The settings in the bytes of a file. -/
def ofBytes (bytes : List UInt8) : Except LoadError Config :=
  match Text.ofUtf8? bytes with
  | none => .error (.unreadable "stream did not contain valid UTF-8")
  | some text =>
    match parse? text with
    | none => .error (.malformed "not a configuration")
    | some config => .ok config

/-- The settings in a file. -/
def load (files : FileTree) (path : String) : Except LoadError Config :=
  match files.read path with
  | .error e => .error (.unreadable e.message)
  | .ok bytes => ofBytes bytes

end Config

end Tenure
