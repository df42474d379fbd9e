import Std.Async.Signal
import Std.Async.TCP
import Std.Time.DateTime.Timestamp
import Tenure.Disk
import Tenure.Endpoint
import Tenure.Lifecycle.Launch
import Tenure.Simulation.Site

/-!
# `Tenure.Main`: the command line

`lockctl` and its flags look at a lock; any other command line runs a process
until it is told to stop. A process lives by the clock of the host: whenever one
of its timers has rung, the files that it works on are read, it takes its steps,
and what has changed is written back. Pages are served beside it, though none of
them over TLS.
-/

set_option autoImplicit false

namespace Tenure.Program

open CommandLine (Printed)
open Simulation (Site World settle stepLimit)
open Std.Async

/-- Prints what a program leaves behind. -/
def leave (p : Printed) : IO UInt32 := do
  IO.print p.output
  IO.eprint p.complaint
  return p.exit.toUInt32

/-- Prints why a command line is not taken, or the help that was asked for. -/
def explain (u : CommandLine.Usage) (e : CommandLine.UsageError) : IO UInt32 :=
  match e with
  | .help => leave ⟨e.exit, u.text, ""⟩
  | e => leave ⟨e.exit, "", s!"error: {e.message}\n\n{u.text}"⟩

/-- Logs alarms. -/
def log (alarms : List Alarm) : IO Unit :=
  alarms.forM fun a => IO.println s!"ERROR {a.message}: {a.cause}"

/-- Logs what the controller of the defaults tells. -/
def tell (e : Control.Drift.Event) : IO Unit :=
  match e with
  | .backInSync => IO.println s!"INFO {e.message}"
  | .changed names => IO.println s!"WARN {e.message}: {Text.quotedList names}"
  | .unreadable error => IO.println s!"WARN {e.message}: {error.message}"

/-- Looks at a lock. -/
def inspect (words : List String) : IO UInt32 :=
  match CommandLine.Inspector.read words with
  | .error e => explain CommandLine.Inspector.usage e
  | .ok order => do
    leave (← Disk.change [order.directory] (CommandLine.Inspector.inspect · order))

/-! ### Pages -/

/-- An address as the network takes it. -/
def hostAddress (a : SocketAddress) : Std.Net.SocketAddress :=
  match a.host with
  | .four bytes =>
    let byte (i : Nat) : UInt8 := (bytes.getD i 0).toUInt8
    .v4 ⟨.ofParts (byte 0) (byte 1) (byte 2) (byte 3), a.port.toUInt16⟩
  | .six groups _ =>
    let group (i : Nat) : UInt16 := (groups.getD i 0).toUInt16
    .v6 ⟨.ofParts (group 0) (group 1) (group 2) (group 3) (group 4) (group 5) (group 6)
      (group 7), a.port.toUInt16⟩

/-- Answers one request. -/
def answerOne (page : IO Endpoint) (client : TCP.Socket.Client) : Async Unit := do
  match ← client.recv? 8192 with
  | none => return
  | some bytes =>
    let page ← page
    client.send (page.reply ((String.fromUTF8? bytes).getD "")).text.toUTF8
    client.shutdown

/-- Answers requests, one after another. -/
partial def answerAll (page : IO Endpoint) (server : TCP.Socket.Server) : Async Unit := do
  let client ← server.accept
  try answerOne page client catch _ => return
  answerAll page server

/-- Serves a page at an address. -/
def serve (page : IO Endpoint) (text : String) : IO Unit :=
  match SocketAddress.parse? text with
  | none => return
  | some address => do
    let server ← TCP.Socket.Server.mk
    try
      server.bind (hostAddress address)
      server.listen 128
    catch e => throw (IO.userError s!"failed to bind {text}: {e}")
    let _ ← IO.asTask ((answerAll page server).block)

/-! ### Processes -/

/-- The paths that a process works on. -/
def pathsOf (c : Config) : List String :=
  c.coordination.lockDirectory.toList ++ c.defaultsDirectory.toList ++ [c.reporting.directory]
    ++ (c.observation.tls.map fun t => [t.certificate, t.key]).getD []

/-- The file that is locked while a process works. -/
def lockOf (c : Config) : Option String :=
  match c.coordination.kind with
  | .memory => none
  | .file => c.coordination.lockDirectory.map fun root =>
    (Store.Directory.mk root).lockPath c.election.lock

/-- The wall clock, in milliseconds. -/
def wallMillis : IO Nat := do
  return (← Std.Time.Timestamp.now).toMillisecondsSinceUnixEpoch.val.toNat

/-- Whether one of some tasks has ended. -/
def anyFinished (tasks : List (AsyncTask Int)) : IO Bool := tasks.anyM fun t => IO.hasFinished t

/-- Waits for the signals that tell a process to stop. -/
def listen : IO (List (AsyncTask Int)) :=
  [Signal.sigterm, Signal.sigint].mapM fun s => do (← Signal.Waiter.mk s false).wait

/-- How long to wait at most before a signal is looked for, in milliseconds. -/
def patience : Nat := 100

/-- Lets a process take its steps at an instant, on the files of the host. -/
def advance (config : Config) (now : Nat) (told : Bool) (w : Site) : IO Site :=
  let act (files : FileTree) : FileTree × Site :=
    let w := World.moveTo (w.withFiles files) now
    let w := settle stepLimit (if told then w.trigger else w)
    (w.surroundings.files, w)
  Disk.locked (lockOf config) (Disk.change (pathsOf config) act)

/-- Lets a process live until it ends. -/
partial def live (config : Config) (start : Nat) (stops : List (AsyncTask Int))
    (metrics : IO.Ref Metrics) (w : Site) : IO Site := do
  let now := ((← IO.monoNanosNow) - start) / 1000000 * 1000000
  let told := (← anyFinished stops) && !w.process.shutdown.triggered
  let rung := match World.due w with
    | some due => Clock.reached due now
    | none => true
  let w ← if told || rung then advance config now told w else pure w
  w.surroundings.events.forM tell
  metrics.set w.metrics
  let w := { w with surroundings := w.surroundings.forgetEvents }
  if w.isOver then return w
  let pause := match World.due w with
    | some due => min patience ((Clock.ring due - now) / 1000000)
    | none => patience
  IO.sleep (max 1 pause).toUInt32
  live config start stops metrics w

/-- Runs a process until it ends. -/
def run (order : Order) : IO UInt32 := do
  let stops ← listen
  let metrics ← IO.mkRef Metrics.empty
  let wall ← wallMillis
  let start ← IO.monoNanosNow
  match ← Disk.change (pathsOf order.config) fun files =>
      Site.launch order.config order.identity files wall with
  | .error e =>
    log (order.failed e)
    return 1
  | .ok w =>
    let o := order.config.observation
    try
      serve (pure Endpoint.health) o.healthAddress
      if o.metricsEnabled && o.tls.isNone then
        serve (Endpoint.metrics <$> metrics.get) o.metricsAddress
    catch e =>
      log (Refusal.alarmsAt order.verbosity [⟨"Startup failed", toString e⟩])
      return 1
    let w ← live order.config start stops metrics w
    let summary := w.process.summary?.getD ⟨0, none⟩
    log (order.ended summary)
    return summary.exitCode.toUInt32

/-- The name of the host, if it has one. -/
def hostName : IO (Option String) := do
  try return some (← IO.FS.readFile "/proc/sys/kernel/hostname") catch _ => return none

/-- The settings file that a command line names. -/
def settingsPath (words : List String) (env : Config.Environment) : List String :=
  match Config.Flags.read words env with
  | .ok flags => flags.config.toList
  | .error _ => []

/-- Runs the process that a command line asks for. -/
def operate (words : List String) : IO UInt32 := do
  let env : Config.Environment :=
    ⟨← IO.getEnv "POD_NAME", ← IO.getEnv "RELEASE_VERSION"⟩
  let files ← Disk.read (settingsPath words env)
  match Order.prepare words env (← hostName) files with
  | .ok order => run order
  | .error (.usage e) => explain Config.Flags.usage e
  | .error refusal =>
    log refusal.alarms
    leave refusal.printed

end Tenure.Program

/-- Looks at a lock, or runs a process. -/
def main (words : List String) : IO UInt32 :=
  match words with
  | "lockctl" :: rest => Tenure.Program.inspect rest
  | words => Tenure.Program.operate words
