import Mathlib.Data.List.Forall2
import Tenure.Toml.Decode

/-!
# `Tenure.Proofs.Toml.Decode`: what the values of a document mean

`IsText`, `IsBool`, `IsNat`, `Names` and `Lists` tell what a value means, without a word about
how it is read. A reader that fits such a relation answers exactly what the value means.

* `text?_eq_some_iff`, `bool?_eq_some_iff`, `nat?_eq_some_iff`, `variant?_eq_some_iff`: the
  readers of plain values fit.
* `list?_eq_some_iff`: so does the reader of a list when the reader of its items does.
-/

set_option autoImplicit false

namespace Tenure.Toml.Value

variable {α : Type}

/-- The value is a text. -/
def IsText (v : Value) (text : String) : Prop := v = .string text

/-- The value is a truth value. -/
def IsBool (v : Value) (b : Bool) : Prop := v = .bool b

/-- The value is a natural number. -/
def IsNat (v : Value) (n : Nat) : Prop := v = .integer n

/-- The value is the name of a variant, or a table that has nothing but that name. -/
inductive Names : Value → String → Prop
  | text (name : String) : Names (.string name) name
  | table (name : String) : Names (.table [(name, .table [])]) name
  | array (name : String) : Names (.table [(name, .array [])]) name

/-- The value is an array, and its items mean these things, one after another. -/
def Lists (means : Value → α → Prop) (v : Value) (all : List α) : Prop :=
  ∃ items, v = .array items ∧ List.Forall₂ means items all

/-- One field of a structure, by its position and name, if the value is a structure and has
it. -/
def field? (v : Value) (index : Nat) (name : String) : Option Value :=
  v.fields?.bind fun f => f.find? index name

/-- A value is read as a text just where it is that text. -/
theorem text?_eq_some_iff (v : Value) (text : String) : v.text? = some text ↔ v.IsText text := by
  unfold text?
  split
  · simp [IsText]
  · rename_i hother
    exact iff_of_false nofun (hother text)

/-- A value is read as a truth value just where it is that one. -/
theorem bool?_eq_some_iff (v : Value) (b : Bool) : v.bool? = some b ↔ v.IsBool b := by
  unfold bool?
  split
  · simp [IsBool]
  · rename_i hother
    exact iff_of_false nofun (hother b)

/-- A value is read as a natural number just where it is that one. -/
theorem nat?_eq_some_iff (v : Value) (n : Nat) : v.nat? = some n ↔ v.IsNat n := by
  unfold nat?
  split
  · rw [IsNat, Option.some.injEq, integer.injEq, Int.ofNat_eq_natCast, Int.natCast_inj]
  · rename_i hother
    exact iff_of_false nofun (hother n)

/-- A value is read as a variant just where it names it. -/
theorem variant?_eq_some_iff (v : Value) (name : String) :
    v.variant? = some name ↔ v.Names name := by
  constructor
  · intro h
    unfold variant? at h
    split at h
    · cases h
      exact .text name
    · cases h
      exact .table name
    · cases h
      exact .array name
    · cases h
  · intro h
    cases h with
    | text => rfl
    | table => rfl
    | array => rfl

/-- The reader of a variant, when its names are told apart as they should be. -/
theorem variant?_bind_eq_some_iff {ofName? : String → Option α} {nameOf : α → String}
    (hname : ∀ name a, ofName? name = some a ↔ name = nameOf a) (v : Value) (a : α) :
    v.variant?.bind ofName? = some a ↔ v.Names (nameOf a) := by
  simp only [Option.bind_eq_some_iff, variant?_eq_some_iff, hname, exists_eq_right]

/-- Reading every item succeeds just where each means what is read. -/
theorem mapM_eq_some_iff {read : Value → Option α} {means : Value → α → Prop}
    (hread : ∀ v a, read v = some a ↔ means v a) {items : List Value} {all : List α} :
    items.mapM read = some all ↔ List.Forall₂ means items all := by
  induction items generalizing all with
  | nil => simp [eq_comm]
  | cons item rest ih =>
    -- the first item is read, and then the others are
    simp only [List.mapM_cons, Option.bind_eq_bind, Option.bind_eq_some_iff, Option.pure_def,
      Option.some.injEq, hread, ih, List.forall₂_cons_left_iff]
    constructor
    · rintro ⟨first, hfirst, others, hothers, rfl⟩
      exact ⟨first, others, hfirst, hothers, rfl⟩
    · rintro ⟨first, others, hfirst, hothers, rfl⟩
      exact ⟨first, hfirst, others, hothers, rfl⟩

/-- A value is read as a list just where it lists what is read. -/
theorem list?_eq_some_iff {read : Value → Option α} {means : Value → α → Prop}
    (hread : ∀ v a, read v = some a ↔ means v a) (v : Value) (all : List α) :
    v.list? read = some all ↔ v.Lists means all := by
  unfold list? Lists
  split
  · rename_i items
    rw [mapM_eq_some_iff hread]
    constructor
    · intro h
      exact ⟨items, rfl, h⟩
    · rintro ⟨_, hitems, h⟩
      cases hitems
      exact h
  · rename_i hother
    refine iff_of_false nofun ?_
    rintro ⟨items, hitems, -⟩
    exact hother items hitems

end Tenure.Toml.Value
