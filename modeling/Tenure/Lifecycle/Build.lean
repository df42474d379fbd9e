/-!
# `Tenure.Lifecycle.Build`: what a build says of itself
-/

set_option autoImplicit false

namespace Tenure

/-- The version of a build, the commit it was made from if that is known, and
the platform it was made for. -/
structure Build where
  version : String
  commit : Option String
  os : String
  arch : String
deriving Repr, DecidableEq

namespace Build

/-- This build. -/
def current : Build := ⟨"0.1.0", none, "linux", "x86_64"⟩

/-- One line that names the build. -/
def text (b : Build) : String :=
  let commit := match b.commit with
    | some c => s!" ({c})"
    | none => ""
  s!"operator-manager {b.version}{commit} {b.os}/{b.arch}"

end Build

end Tenure
