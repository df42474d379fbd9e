/-!
# `Tenure.Lifecycle.Shutdown`: the end of a process

A shutdown is triggered once and for all; the first fatal reason given to it is
kept. Tokens hang below it: cancelling a token cancels all that hang below it.

* `Shutdown.fail_fatal`: after a failure there is a fatal reason, and one that
  was there before stays.
-/

set_option autoImplicit false

namespace Tenure

/-- Whether a process was told to stop, and the first fatal reason for it. -/
structure Shutdown where
  triggered : Bool
  fatal : Option String
deriving Repr, DecidableEq, Inhabited

namespace Shutdown

def new : Shutdown := ⟨false, none⟩

/-- Asks for an orderly end. -/
def trigger (s : Shutdown) : Shutdown := { s with triggered := true }

/-- Records a fatal reason, unless there is one, and asks for the end. -/
def fail (s : Shutdown) (reason : String) : Shutdown :=
  ⟨true, some (s.fatal.getD reason)⟩

/-- Only the first fatal reason is kept. -/
theorem fail_fatal (s : Shutdown) (reason : String) :
    (s.fail reason).fatal = some (s.fatal.getD reason) := rfl

end Shutdown

/-- How a run ended: how many episodes were started, and the first fatal
reason. -/
structure Summary where
  episodes : Nat
  fatal : Option String
deriving Repr, DecidableEq, Inhabited

/-- The exit code that tells whether a run ended for a fatal reason. -/
def Summary.exitCode (s : Summary) : Nat := if s.fatal.isSome then 1 else 0

/-- The tokens below a shutdown, each cancelled on its own or not. -/
structure TokenTree where
  shutdown : Shutdown
  /-- For each token, whether it was cancelled itself. -/
  children : List Bool
deriving Repr, DecidableEq, Inhabited

namespace TokenTree

def new : TokenTree := ⟨.new, []⟩

/-- Hangs a new token below the root. -/
def addChild (t : TokenTree) : TokenTree := { t with children := t.children ++ [false] }

/-- Cancels one token, which leaves the root alone. -/
def cancelChild (t : TokenTree) (i : Nat) : TokenTree :=
  { t with children := t.children.set i true }

/-- For each token, whether it or the root was cancelled. -/
def cancelled (t : TokenTree) : List Bool := t.children.map (· || t.shutdown.triggered)

end TokenTree

end Tenure
