import Tenure.CommandLine.Inspector
import Tenure.Config.Document
import Tenure.Config.Flags
import Tenure.Lifecycle.Build
import Tenure.Lifecycle.Startup

/-!
# `Tenure.Lifecycle.Launch`: from a command line to a process

A command line asks for the version, or gives the settings of a process. The
settings of a file come first, the flags replace them, and the result is checked.
Whatever is wrong before events are logged is a complaint; after that it is an
event of its own, which is not logged when nothing is.
Who asks for the version gets it, whatever else is wrong.
-/

set_option autoImplicit false

namespace Tenure

open CommandLine (Printed UsageError)

/-- An event that tells of an error. -/
structure Alarm where
  message : String
  /-- The error, or the reason. -/
  cause : String
deriving Repr, DecidableEq, Inhabited

/-- Why no process is started. -/
inductive Refusal
  | usage (error : UsageError)
  | version
  | noSettings (path : String) (error : Config.LoadError)
  | verbosity (error : VerbosityError)
  | invalid (verbosity : Verbosity) (problems : List Config.Problem)
  /-- The check of the settings broke down. -/
  | overflow
  | nameless (verbosity : Verbosity) (error : IdentityError)
deriving Repr, DecidableEq

/-- What a process is started with. -/
structure Order where
  config : Config
  verbosity : Verbosity
  identity : Identity
deriving Repr, DecidableEq

namespace Refusal

/-- The alarms that are logged at a verbosity. -/
def alarmsAt (verbosity : Verbosity) (alarms : List Alarm) : List Alarm :=
  if verbosity = .off then [] else alarms

/-- What is left behind. -/
def printed : Refusal → Printed
  | usage e => ⟨e.exit, "", ""⟩
  | version => ⟨0, Build.current.text ++ "\n", ""⟩
  | noSettings path e => ⟨1, "", s!"failed to load {path}: {e.message}\n"⟩
  | verbosity e => ⟨1, "", e.message ++ "\n"⟩
  | invalid .. | nameless .. => ⟨1, "", ""⟩
  | overflow => ⟨101, "", "overflow in Duration\n"⟩

/-- What is logged. -/
def alarms : Refusal → List Alarm
  | invalid v problems => alarmsAt v [⟨"Invalid configuration", Config.problemsText problems⟩]
  | nameless v e => alarmsAt v [⟨"Failed to determine identity", e.message⟩]
  | _ => []

end Refusal

namespace Order

/-- The settings that flags are put on top of. -/
def settings (files : FileTree) : Option String → Except Refusal Config
  | none => .ok .standard
  | some path =>
    match Config.load files path with
    | .ok c => .ok c
    | .error e => .error (.noSettings path e)

/-- Checks settings. -/
def accept (c : Config) (verbosity : Verbosity) : Except Refusal Unit :=
  match c.check with
  | .accepted => .ok ()
  | .rejected problems => .error (.invalid verbosity problems)
  | .overflow _ => .error .overflow

/-- Reads flags and settings. The host gives the process its name when nobody
else does. -/
def ofFlags (flags : Config.Flags) (host : Option String) (files : FileTree) :
    Except Refusal Order :=
  if flags.version then .error .version
  else do
    let config := flags.apply (← settings files flags.config)
    match Verbosity.ofText config.observation.verbosity with
    | .error e => throw (.verbosity e)
    | .ok verbosity =>
      accept config verbosity
      match Identity.resolve flags.podName host with
      | .error e => throw (.nameless verbosity e)
      | .ok identity => return ⟨config, verbosity, identity⟩

/-- Reads a command line and the settings that it names. -/
def prepare (words : List String) (env : Config.Environment) (host : Option String)
    (files : FileTree) : Except Refusal Order :=
  match Config.Flags.read words env with
  | .error e => .error (.usage e)
  | .ok flags => ofFlags flags host files

/-- What is logged when a process cannot start. -/
def failed (o : Order) (e : StartupError) : List Alarm :=
  Refusal.alarmsAt o.verbosity [⟨"Startup failed", e.message⟩]

/-- What is logged when a process with these parts ends. Only an episode that
cannot begin is fatal to it, and that is logged twice. -/
def ended (o : Order) (s : Summary) : List Alarm :=
  match s.fatal with
  | none => []
  | some reason =>
    Refusal.alarmsAt o.verbosity
      [⟨"Fatal error while leading", reason⟩, ⟨"Exiting after fatal error", reason⟩]

end Order

end Tenure
