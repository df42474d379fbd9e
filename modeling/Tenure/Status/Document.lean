import Tenure.Json.Decode

/-!
# `Tenure.Status.Document`: the published status of an operator

While a process leads it publishes a status document: who reports, in which
phase the operator is, four conditions that follow from the phase, and the
objects whose state belongs to it. Empty texts of conditions and objects are left
out when a document is written and read back as empty; an object's resource is
always written.
-/

set_option autoImplicit false

namespace Tenure.Status

open Json

/-- What a condition is about. -/
inductive ConditionType
  | available
  | progressing
  | degraded
  | upgradeable
deriving Repr, DecidableEq, Inhabited

/-- Whether a condition holds. -/
inductive Standing
  | true
  | false
  | unknown
deriving Repr, DecidableEq, Inhabited

/-- One condition of an operator, since a wall-clock time. -/
structure Condition where
  type : ConditionType
  status : Standing
  reason : String
  message : String
  since : UInt64
deriving Repr, DecidableEq, Inhabited

/-- An object whose state contributes to the operator's. -/
structure RelatedObject where
  group : String
  resource : String
  space : String
  name : String
deriving Repr, DecidableEq, Inhabited

/-- The phase of a reporting session. -/
inductive Phase
  | starting
  | running
  | stopped
deriving Repr, DecidableEq, Inhabited

/-- A status document. -/
structure Document where
  name : String
  version : String
  reporter : String
  phase : Phase
  conditions : List Condition
  relatedObjects : List RelatedObject
  updated : UInt64
deriving Repr, DecidableEq, Inhabited

/-! ### Names -/

def ConditionType.all : List ConditionType := [.available, .progressing, .degraded, .upgradeable]

def ConditionType.name : ConditionType → String
  | available => "Available"
  | progressing => "Progressing"
  | degraded => "Degraded"
  | upgradeable => "Upgradeable"

def ConditionType.ofName? : String → Option ConditionType
  | "Available" => some available
  | "Progressing" => some progressing
  | "Degraded" => some degraded
  | "Upgradeable" => some upgradeable
  | _ => none

def Standing.name : Standing → String
  | true => "True"
  | false => "False"
  | unknown => "Unknown"

def Standing.ofName? : String → Option Standing
  | "True" => some true
  | "False" => some false
  | "Unknown" => some unknown
  | _ => none

/-- The name of a phase in a document. -/
def Phase.name : Phase → String
  | starting => "starting"
  | running => "running"
  | stopped => "stopped"

/-- The name of a phase as a proper noun. -/
def Phase.title : Phase → String
  | starting => "Starting"
  | running => "Running"
  | stopped => "Stopped"

def Phase.ofName? : String → Option Phase
  | "starting" => some starting
  | "running" => some running
  | "stopped" => some stopped
  | _ => none

/-! ### The conditions of a phase -/

/-- The conditions published in a phase. -/
def Phase.conditions (phase : Phase) (since : UInt64) : List Condition :=
  let (available, progressing, reason, message) : Standing × Standing × String × String :=
    match phase with
    | .starting => (.false, .true, "Starting", "Operator is starting")
    | .running => (.true, .false, "AsExpected", "Operator is running")
    | .stopped =>
      (.false, .false, "LeadershipReleased", "Leadership released, operator stopped")
  [⟨.available, available, reason, message, since⟩,
   ⟨.progressing, progressing, reason, message, since⟩,
   ⟨.degraded, .false, "", "", since⟩,
   ⟨.upgradeable, .true, "", "", since⟩]

/-- The first condition of a type. -/
def Document.condition? (d : Document) (type : ConditionType) : Option Condition :=
  d.conditions.find? (·.type == type)

/-! ### Writing -/

/-- A member that is left out when its text is empty. -/
def unlessEmpty (name text : String) : List (String × Tree) :=
  if text.isEmpty then [] else [(name, .ofText text)]

def Condition.toTree (c : Condition) : Tree := .ofMembers <|
  [("type", .ofText c.type.name), ("status", .ofText c.status.name)]
    ++ unlessEmpty "reason" c.reason ++ unlessEmpty "message" c.message
    ++ [("last_transition_ms", .ofNat c.since.toNat)]

def RelatedObject.toTree (o : RelatedObject) : Tree := .ofMembers <|
  unlessEmpty "group" o.group ++ [("resource", .ofText o.resource)]
    ++ unlessEmpty "namespace" o.space ++ unlessEmpty "name" o.name

def Document.toTree (d : Document) : Tree := .ofMembers [
  ("name", .ofText d.name),
  ("version", .ofText d.version),
  ("reporter", .ofText d.reporter),
  ("phase", .ofText d.phase.name),
  ("conditions", .array (d.conditions.map Condition.toTree)),
  ("related_objects", .array (d.relatedObjects.map RelatedObject.toTree)),
  ("last_update_ms", .ofNat d.updated.toNat)]

/-- The bytes of a published document. -/
def Document.fileBytes (d : Document) : List UInt8 := Json.pretty 0 d.toTree

/-! ### Reading -/

def millis? (t : Tree) : Option UInt64 := (t.nat? UInt64.size).map UInt64.ofNat

def Condition.ofTree? (t : Tree) : Option Condition := do
  let f ← t.fields? 5
  let type ← f.required? 0 "type" fun t => do ConditionType.ofName? (← t.variant?)
  let status ← f.required? 1 "status" fun t => do Standing.ofName? (← t.variant?)
  let reason ← f.optional? 2 "reason" Tree.text? ""
  let message ← f.optional? 3 "message" Tree.text? ""
  let since ← f.required? 4 "last_transition_ms" millis?
  return ⟨type, status, reason, message, since⟩

def RelatedObject.ofTree? (t : Tree) : Option RelatedObject := do
  let f ← t.fields? 4
  let group ← f.optional? 0 "group" Tree.text? ""
  let resource ← f.optional? 1 "resource" Tree.text? ""
  let space ← f.optional? 2 "namespace" Tree.text? ""
  let name ← f.optional? 3 "name" Tree.text? ""
  return ⟨group, resource, space, name⟩

def Document.ofTree? (t : Tree) : Option Document := do
  let f ← t.fields? 7
  let name ← f.required? 0 "name" Tree.text?
  let version ← f.required? 1 "version" Tree.text?
  let reporter ← f.required? 2 "reporter" Tree.text?
  let phase ← f.required? 3 "phase" fun t => do Phase.ofName? (← t.variant?)
  let conditions ← f.required? 4 "conditions" (Tree.list? Condition.ofTree?)
  let relatedObjects ← f.required? 5 "related_objects" (Tree.list? RelatedObject.ofTree?)
  let updated ← f.required? 6 "last_update_ms" millis?
  return ⟨name, version, reporter, phase, conditions, relatedObjects, updated⟩

/-- Reads a published document. -/
def Document.parse? (bytes : List UInt8) : Option Document := do ofTree? (← Json.parse bytes)

end Tenure.Status
