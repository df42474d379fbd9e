import Tenure.CommandLine.Basic
import Tenure.Config.Basic

/-!
# `Tenure.Config.Flags`: settings on the command line

A flag replaces the setting of a file or the standard one. The two files of a
certificate and its key are replaced together as soon as one of them is given,
and what is then missing is empty. The name of the pod and the release version
can also come from the environment.
-/

set_option autoImplicit false

namespace Tenure

namespace Config

open CommandLine

/-- The flags that were given. -/
structure Flags where
  name : Option String
  defaultsDirectory : Option String
  version : Bool
  tlsKey : Option String
  tlsCertificate : Option String
  leaderNamespace : Option String
  verbosity : Option String
  config : Option String
  lockDirectory : Option String
  statusDirectory : Option String
  healthAddress : Option String
  metricsAddress : Option String
  podName : Option String
  releaseVersion : Option String
deriving Repr, DecidableEq, Inhabited

/-- The environment of a process, as far as it matters. -/
structure Environment where
  podName : Option String
  releaseVersion : Option String
deriving Repr, DecidableEq, Inhabited

namespace Flags

/-- The flags of the command line. -/
def usage : Usage where
  commands := []
  flags := [
    ⟨"clusterOperatorName", none, .text⟩,
    ⟨"defaultsDir", none, .path⟩,
    ⟨"version", none, .nothing⟩,
    ⟨"tls-key", none, .text⟩,
    ⟨"tls-cert", none, .text⟩,
    ⟨"leader-namespace", none, .text⟩,
    ⟨"level", none, .text⟩,
    ⟨"config", none, .path⟩,
    ⟨"lock-dir", none, .path⟩,
    ⟨"status-dir", none, .path⟩,
    ⟨"health-address", none, .text⟩,
    ⟨"metrics-address", none, .text⟩,
    ⟨"pod-name", none, .text⟩,
    ⟨"release-version", none, .text⟩]

/-- The flags that were given, completed from the environment. -/
def ofGiven (given : Given) (env : Environment) : Flags where
  name := given.lookup "clusterOperatorName"
  defaultsDirectory := given.lookup "defaultsDir"
  version := (given.lookup "version").isSome
  tlsKey := given.lookup "tls-key"
  tlsCertificate := given.lookup "tls-cert"
  leaderNamespace := given.lookup "leader-namespace"
  verbosity := given.lookup "level"
  config := given.lookup "config"
  lockDirectory := given.lookup "lock-dir"
  statusDirectory := given.lookup "status-dir"
  healthAddress := given.lookup "health-address"
  metricsAddress := given.lookup "metrics-address"
  podName := (given.lookup "pod-name").or env.podName
  releaseVersion := (given.lookup "release-version").or env.releaseVersion

/-- Reads the command line. -/
def read (words : List String) (env : Environment) : Except UsageError Flags :=
  (usage.read words).map fun parsed => ofGiven parsed.given env

/-- The files of a certificate and its key, if one of them is given. -/
def tls (f : Flags) : Option TlsPair :=
  if f.tlsCertificate.isSome || f.tlsKey.isSome then
    some ⟨f.tlsCertificate.getD "", f.tlsKey.getD ""⟩
  else none

/-- Puts what is given in place of what a configuration says. -/
def apply (f : Flags) (c : Config) : Config where
  election := { c.election with
    lock := { c.election.lock with
      space := f.leaderNamespace.getD c.election.lock.space } }
  coordination := { c.coordination with
    lockDirectory := f.lockDirectory.or c.coordination.lockDirectory }
  reporting := { c.reporting with
    name := f.name.getD c.reporting.name
    directory := f.statusDirectory.getD c.reporting.directory
    releaseVersion := f.releaseVersion.getD c.reporting.releaseVersion }
  defaultsDirectory := f.defaultsDirectory.or c.defaultsDirectory
  resyncSecs := c.resyncSecs
  observation := { c.observation with
    verbosity := f.verbosity.getD c.observation.verbosity
    healthAddress := f.healthAddress.getD c.observation.healthAddress
    metricsAddress := f.metricsAddress.getD c.observation.metricsAddress
    tls := f.tls.or c.observation.tls }

end Flags

end Config

end Tenure
