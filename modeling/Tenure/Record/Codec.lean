import Tenure.Record.Basic
import Tenure.Json.Decode

/-!
# `Tenure.Record.Codec`: lock records as JSON

The stored form of a lock record, alone and together with its version. Records
are written with their fields in a fixed order; they are read in any order, with
unknown fields skipped, and numbers have to fit their fields.
-/

set_option autoImplicit false

namespace Tenure

open Json

namespace Record

/-- A record as it is stored. -/
def toTree (r : Record) : Tree := .ofMembers [
  ("holder_identity", .ofText r.holder),
  ("lease_duration_ms", .ofNat r.leaseMillis.toNat),
  ("acquire_time_ms", .ofNat r.acquireTime.toNat),
  ("renew_time_ms", .ofNat r.renewTime.toNat),
  ("leader_transitions", .ofNat r.transitions.toNat)]

/-- A record as it is shown, with its fields in alphabetical order. -/
def toSortedTree (r : Record) : Tree := .ofMembers [
  ("acquire_time_ms", .ofNat r.acquireTime.toNat),
  ("holder_identity", .ofText r.holder),
  ("leader_transitions", .ofNat r.transitions.toNat),
  ("lease_duration_ms", .ofNat r.leaseMillis.toNat),
  ("renew_time_ms", .ofNat r.renewTime.toNat)]

/-- A field of 64 bits. -/
def word64? (t : Tree) : Option UInt64 := (t.nat? UInt64.size).map UInt64.ofNat

/-- A field of 32 bits. -/
def word32? (t : Tree) : Option UInt32 := (t.nat? UInt32.size).map UInt32.ofNat

/-- Reads a record. -/
def ofTree? (t : Tree) : Option Record := do
  let f ← t.fields? 5
  let holder ← f.required? 0 "holder_identity" Tree.text?
  let lease ← f.required? 1 "lease_duration_ms" word64?
  let acquired ← f.required? 2 "acquire_time_ms" word64?
  let renewed ← f.required? 3 "renew_time_ms" word64?
  let transitions ← f.required? 4 "leader_transitions" word32?
  return ⟨holder, lease, acquired, renewed, transitions⟩

/-- Reads the stored form of a record. -/
def parse? (bytes : List UInt8) : Option Record := do ofTree? (← Json.parse bytes)

end Record

namespace Versioned

/-- A record and its version as they are stored. -/
def toTree (v : Versioned Record) : Tree := .ofMembers [
  ("version", .ofNat v.version),
  ("value", v.value.toTree)]

/-- Reads a record and its version. -/
def ofTree? (t : Tree) : Option (Versioned Record) := do
  let f ← t.fields? 2
  let version ← f.required? 0 "version" (Tree.nat? UInt64.size)
  let value ← f.required? 1 "value" Record.ofTree?
  return ⟨version, value⟩

/-- The bytes of a record file. -/
def fileBytes (v : Versioned Record) : List UInt8 := Json.pretty 0 v.toTree

/-- Reads a record file. -/
def parse? (bytes : List UInt8) : Option (Versioned Record) := do ofTree? (← Json.parse bytes)

end Versioned

end Tenure
