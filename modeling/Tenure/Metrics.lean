/-!
# `Tenure.Metrics`: what a process counts

Leadership is counted in four totals and shown in one gauge per identity. A
registry holds what was measured so far; a metric that was never measured does
not appear in its text.
-/

set_option autoImplicit false

namespace Tenure

/-- How an episode has ended. -/
inductive EpisodeEnd
  | lost
  | cancelled
  | finished
deriving Repr, DecidableEq, Inhabited

def EpisodeEnd.name : EpisodeEnd → String
  | lost => "lost"
  | cancelled => "cancelled"
  | finished => "finished"

/-- One thing to count or show. -/
inductive Measurement
  | leading (identity : String) (now : Bool)
  | transition
  | episode (outcome : String)
  | acquireAttempt (result : String)
  | renewFailure
deriving Repr, DecidableEq, Inhabited

/-- What was measured so far. -/
structure Metrics where
  /-- For each identity, whether it leads. -/
  leaders : List (String × Bool)
  transitions : Nat
  /-- Episodes that have ended, by outcome. -/
  episodes : List (String × Nat)
  /-- Attempts to acquire the lease, by result. -/
  attempts : List (String × Nat)
  renewFailures : Nat
deriving Repr, DecidableEq, Inhabited

namespace Metrics

def empty : Metrics := ⟨[], 0, [], [], 0⟩

/-- Sets the value of a label. -/
def set {α : Type} (label : String) (value : α) : List (String × α) → List (String × α)
  | [] => [(label, value)]
  | (l, v) :: rest => if l == label then (l, value) :: rest else (l, v) :: set label value rest

/-- Adds one to the count of a label. -/
def count (label : String) : List (String × Nat) → List (String × Nat)
  | [] => [(label, 1)]
  | (l, n) :: rest => if l == label then (l, n + 1) :: rest else (l, n) :: count label rest

/-- Takes a measurement in. -/
def record (m : Metrics) : Measurement → Metrics
  | .leading identity now => { m with leaders := set identity now m.leaders }
  | .transition => { m with transitions := m.transitions + 1 }
  | .episode outcome => { m with episodes := count outcome m.episodes }
  | .acquireAttempt result => { m with attempts := count result m.attempts }
  | .renewFailure => { m with renewFailures := m.renewFailures + 1 }

/-- A label value as it is written: line feeds, quotes and backslashes are
escaped, but a backslash that escapes another one stays as it is. -/
def escapeLabel (pending : Bool) : List Char → List Char
  | [] => if pending then ['\\', '\\'] else []
  | '\n' :: rest => '\\' :: 'n' :: escapeLabel pending rest
  | '"' :: rest => '\\' :: '"' :: escapeLabel false rest
  | '\\' :: rest =>
    if pending then '\\' :: '\\' :: escapeLabel false rest else escapeLabel true rest
  | c :: rest => if pending then '\\' :: '\\' :: c :: escapeLabel false rest
                 else c :: escapeLabel false rest

/-- One sample with a label. -/
def sample (metric label value : String) (n : Nat) : String :=
  metric ++ "\x7b" ++ label ++ "=\"" ++ String.ofList (escapeLabel false value.toList) ++ "\"\x7d "
    ++ toString n

/-- The samples of a metric under the line that names its type. -/
def block (metric type : String) (samples : List String) : List String :=
  if samples.isEmpty then [] else s!"# TYPE {metric} {type}" :: samples

/-- A total, if anything was counted. -/
def total (metric : String) (n : Nat) : List String :=
  block metric "counter" (if n = 0 then [] else [s!"{metric} {n}"])

/-- The lines of the exposition text, in no particular order. -/
def lines (m : Metrics) : List String :=
  block "operator_leader_is_leader" "gauge"
      (m.leaders.map fun (id, now) =>
        sample "operator_leader_is_leader" "identity" id (if now then 1 else 0))
    ++ total "operator_leader_transitions_total" m.transitions
    ++ block "operator_leader_episodes_total" "counter"
      (m.episodes.map fun (outcome, n) =>
        sample "operator_leader_episodes_total" "outcome" outcome n)
    ++ block "operator_lease_acquire_attempts_total" "counter"
      (m.attempts.map fun (result, n) =>
        sample "operator_lease_acquire_attempts_total" "result" result n)
    ++ total "operator_lease_renew_failures_total" m.renewFailures

/-- The lines of the exposition text in ascending order. -/
def sortedLines (m : Metrics) : List String := m.lines.mergeSort fun a b => decide (a ≤ b)

end Metrics

end Tenure
