import Tenure.Store.Basic

/-!
# `Tenure.Store.Memory`: a store inside one process

The records of a process under their keys. The statements:

* `get_put_self` and `get_put_other`: a write shows under its own key and under
  no other.
* `answer_get_other`: no request changes the record of another key.
-/

set_option autoImplicit false

namespace Tenure.Store

/-- A store that lives in one process. Its versions have no end. It would take 2 ^ 64 writes
for a program to get to the last one of its own. -/
structure Memory where
  records : List (Key × Versioned Record)
deriving Repr, DecidableEq, Inhabited

namespace Memory

def empty : Memory := ⟨[]⟩

/-- The record of a key. -/
def get (m : Memory) (key : Key) : Option (Versioned Record) :=
  (m.records.find? (·.1 == key)).map (·.2)

/-- Puts a record under a key. -/
def put (m : Memory) (key : Key) (stored : Versioned Record) : Memory :=
  ⟨(key, stored) :: m.records⟩

/-- A key has the record that was put last. -/
@[simp] theorem get_put_self (m : Memory) (key : Key) (stored : Versioned Record) :
    (m.put key stored).get key = some stored := by
  simp [get, put]

/-- A write under one key does not show under another. -/
theorem get_put_other (m : Memory) (key other : Key) (stored : Versioned Record)
    (h : other ≠ key) : (m.put key stored).get other = m.get other := by
  have hne : (key == other) = false := by simpa using fun hc => h hc.symm
  simp [get, put, hne]

/-- Answers a request about a key. -/
def answer (m : Memory) (key : Key) : Request → Memory × Reply
  | .get => (m, .found (m.get key))
  | .create record =>
    match m.get key with
    | some _ => (m, .failed (.conflict key))
    | none => (m.put key ⟨Versioned.initial, record⟩, .written Versioned.initial)
  | .update record expected =>
    match m.get key with
    | none => (m, .failed (.notFound key))
    | some current =>
      if current.version = expected then
        (m.put key ⟨current.version + 1, record⟩, .written (current.version + 1))
      else (m, .failed (.conflict key))

/-- So no request about a key changes the record of another one. -/
theorem answer_get_other (m : Memory) (key other : Key) (request : Request) (h : other ≠ key) :
    (m.answer key request).1.get other = m.get other := by
  cases request with
  | get => rfl
  | create record =>
    simp only [answer]
    split
    · rfl
    · exact get_put_other m key other _ h
  | update record expected =>
    simp only [answer]
    split
    · rfl
    · split
      · exact get_put_other m key other _ h
      · rfl

/-- Someone else writes a record over whatever is there. -/
def overwrite (m : Memory) (key : Key) (record : Record) : Memory :=
  match m.get key with
  | none => m.put key ⟨Versioned.initial, record⟩
  | some current => m.put key ⟨current.version + 1, record⟩

end Memory

end Tenure.Store
