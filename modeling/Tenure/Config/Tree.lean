import Tenure.Config.Basic
import Tenure.Json.Tree

/-!
# `Tenure.Config.Tree`: all settings in one document

The settings of a process as a JSON document, with a member for each group of
settings. The members have the names that the settings have in a configuration
file, and a setting that is absent is null.
-/

set_option autoImplicit false

namespace Tenure

namespace Config

open Json

/-- A text, or null. -/
def textOrNull : Option String → Tree
  | some text => .ofText text
  | none => .null

def Election.toTree (e : Election) : Tree := .ofMembers [
  ("namespace", .ofText e.lock.space),
  ("lock_name", .ofText e.lock.name),
  ("lease_duration_secs", .ofNat e.leaseSecs),
  ("renew_deadline_secs", .ofNat e.renewDeadlineSecs),
  ("retry_period_secs", .ofNat e.retryPeriodSecs),
  ("release_on_cancel", .bool e.releaseOnCancel),
  ("rejoin_after_loss", .bool e.rejoinAfterLoss)]

def Coordination.toTree (c : Coordination) : Tree := .ofMembers [
  ("kind", .ofText c.kind.name),
  ("lock_dir", textOrNull c.lockDirectory)]

def Reporting.toTree (r : Reporting) : Tree := .ofMembers [
  ("cluster_operator_name", .ofText r.name),
  ("dir", .ofText r.directory),
  ("report_interval_secs", .ofNat r.intervalSecs),
  ("release_version", .ofText r.releaseVersion),
  ("related_objects", .array (r.relatedObjects.map Status.RelatedObject.toTree))]

def TlsPair.toTree (t : TlsPair) : Tree := .ofMembers [
  ("cert_path", .ofText t.certificate),
  ("key_path", .ofText t.key)]

def Observation.toTree (o : Observation) : Tree := .ofMembers [
  ("log_level", .ofText o.verbosity),
  ("log_format", .ofText o.logFormat.name),
  ("health_address", .ofText o.healthAddress),
  ("metrics_enabled", .bool o.metricsEnabled),
  ("metrics_address", .ofText o.metricsAddress),
  ("tls", (o.tls.map TlsPair.toTree).getD .null)]

end Config

/-- All settings. -/
def Config.toTree (c : Config) : Json.Tree := .ofMembers [
  ("leader_election", c.election.toTree),
  ("store", c.coordination.toTree),
  ("status", c.reporting.toTree),
  ("defaults", .ofMembers [("dir", Config.textOrNull c.defaultsDirectory)]),
  ("controller", .ofMembers [("resync_secs", .ofNat c.resyncSecs)]),
  ("observability", c.observation.toTree)]

end Tenure
