import Tenure.Duration

/-!
# `Tenure.Record.Basic`: the shared leadership record

A lock record says who leads, for how long without a renewal, since when, and
how often the lead has changed hands. A record without a holder was released and
is free for anyone. The store gives every write a version; a key names a record.
-/

set_option autoImplicit false

namespace Tenure

/-- The name of a lock record: a namespace and a name in it. -/
structure Key where
  space : String
  name : String
deriving Repr, DecidableEq, Inhabited

def Key.text (k : Key) : String := k.space ++ "/" ++ k.name

/-- The leadership record that the candidates share. -/
structure Record where
  /-- Identity of the holder, empty when the lock was released. -/
  holder : String
  /-- How long the lease stays valid without a renewal, in milliseconds. -/
  leaseMillis : UInt64
  /-- Wall-clock time at which the holder first got the lock. -/
  acquireTime : UInt64
  /-- Wall-clock time of the last successful renewal. -/
  renewTime : UInt64
  /-- How often the lock has changed hands. -/
  transitions : UInt32
deriving Repr, DecidableEq, Inhabited

namespace Record

/-- Whether anyone holds the lock. -/
def isHeld (r : Record) : Bool := r.holder != ""

/-- Whether the lock names this identity. -/
def isHeldBy (r : Record) (identity : String) : Bool := r.holder == identity

/-- How long the lease stays valid without a renewal. -/
def lease (r : Record) : Duration := .ofMillis r.leaseMillis.toNat

end Record

/-- A value together with the version that the store gave it. Versions count up
from one, one for each write, and never come back. They are natural numbers, where
a program keeps 64 bits of them: past 2 ^ 64 - 1 it has no next version, and its next
write panics, or is version zero where overflows are not checked. -/
structure Versioned (α : Type) where
  version : Nat
  value : α
deriving Repr, DecidableEq, Inhabited

/-- The version of a new record. -/
def Versioned.initial : Nat := 1

end Tenure
