import Tenure.Config.Check
import Tenure.Control.Drift
import Tenure.Control.Manager
import Tenure.Lifecycle.Identity
import Tenure.Lifecycle.Process
import Tenure.Status.Reporter
import Tenure.Tls.Pair

/-!
# `Tenure.Lifecycle.Startup`: what a process is made of

From its settings and its identity a process gets a store, an elector, a
reporter, a source of defaults with a controller that watches it, and servers.
Whatever is wrong with one of them ends the process before it competes: first the
store is opened, then the timing is looked at, then the addresses and files of
the servers.
A process without a name to report under is silent.
-/

set_option autoImplicit false

namespace Tenure

/-- Why a process cannot start. -/
inductive StartupError
  | timing (error : Leader.TimingError)
  | store (error : Store.Error)
  | missingLockDirectory
  | tls (error : TlsError)
  | invalidAddress (text : String)
deriving Repr, DecidableEq

/-- The kind of an error, in one word. -/
def StartupError.kind : StartupError → String
  | timing _ => "Timing"
  | store _ => "Store"
  | missingLockDirectory => "MissingLockDir"
  | tls _ => "Tls"
  | invalidAddress _ => "InvalidAddress"

def StartupError.message : StartupError → String
  | timing e => s!"invalid leader election timing: {e.message}"
  | store e => s!"failed to open coordination store: {e.message}"
  | missingLockDirectory => "file store selected but no lock directory configured"
  | tls e => e.message
  | invalidAddress text => s!"invalid address {Text.quoted text}"

namespace Config

/-- Opens the store in which the lock is kept. -/
def openStore (c : Config) (files : FileTree) : FileTree × Except StartupError Store.Backing :=
  match c.coordination.kind, c.coordination.lockDirectory with
  | .memory, _ => (files, .ok (.memory .empty))
  | .file, none => (files, .error .missingLockDirectory)
  | .file, some directory =>
    match Store.Directory.openAt directory files with
    | (files, .ok d) => (files, .ok (.directory d))
    | (files, .error e) => (files, .error (.store e))

/-- The candidate of a process whose timing was checked. -/
def candidateWith (c : Config) (identity : Identity) (now : Nat) (timing : Leader.Timing) :
    Leader.Candidate :=
  let client := Lease.Client.new c.election.lock identity.name timing.lease
  ⟨.new client timing c.election.releaseOnCancel now, .healthy, none⟩

/-- The candidate of a process. -/
def candidate (c : Config) (identity : Identity) (now : Nat) :
    Except StartupError Leader.Candidate :=
  (c.election.timing.mapError .timing).map (c.candidateWith identity now)

/-- What is reported, by whom and how often. The namespace of the lock is a
related object by itself. -/
def profile (c : Config) (identity : Identity) : Status.Profile where
  name := c.reporting.name
  version := c.reporting.releaseVersion
  reporter := identity.name
  relatedObjects :=
    ⟨"", "namespaces", "", c.election.lock.space⟩ :: c.reporting.relatedObjects
  interval := .ofSecs c.reporting.intervalSecs

/-- The reporter of a process. -/
def reporterKind (c : Config) (identity : Identity) : Status.Reporter.Kind :=
  if c.reporting.name.isEmpty then .silent else .cluster (c.profile identity)

/-- The factory of the controller that watches the defaults. -/
def driftFactory (c : Config) : Control.Factory Control.Drift :=
  fun applied => .ok (.new applied (.ofSecs c.resyncSecs))

/-- Checks the text of an address. -/
def checkAddress (text : String) : Except StartupError Unit :=
  match SocketAddress.parse? text with
  | some _ => .ok ()
  | none => .error (.invalidAddress text)

/-- Checks that the servers can be started, and gives their names. -/
def servers (c : Config) (files : FileTree) : Except StartupError (List String) := do
  let o := c.observation
  checkAddress o.healthAddress
  if o.metricsEnabled then
    checkAddress o.metricsAddress
    match o.tls with
    | none => return ["signals", "health", "metrics"]
    | some pair =>
      match Tls.loadPair files pair.certificate pair.key with
      | .ok () => return ["signals", "health", "metrics"]
      | .error e => throw (.tls e)
  else return ["signals", "health"]

end Config

end Tenure
