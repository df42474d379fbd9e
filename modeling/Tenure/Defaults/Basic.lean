import Tenure.Json.Value

/-!
# `Tenure.Defaults.Basic`: named default definitions

The defaults of an episode are values under names. They are kept in ascending
order of the names, and no name comes twice. `diff` names the definitions in
which two sets of defaults differ.

* `get?_insert_self`: a definition that was put in is found under its name.
-/

set_option autoImplicit false

namespace Tenure

/-- Named default definitions. -/
structure Defaults where
  definitions : List (String × Json.Value)
  ascending : Json.Ascending definitions

namespace Defaults

/-- No definitions. -/
def empty : Defaults := ⟨[], List.Pairwise.nil⟩

instance : Inhabited Defaults := ⟨empty⟩

/-- Puts a definition in, in place of one of the same name. -/
def insert (d : Defaults) (name : String) (value : Json.Value) : Defaults :=
  ⟨Json.insertMember name value d.definitions, Json.ascending_insertMember name value d.ascending⟩

/-- The defaults with these definitions; of several of one name the last one
counts. -/
def ofList (definitions : List (String × Json.Value)) : Defaults :=
  definitions.foldl (fun d (name, value) => d.insert name value) empty

/-- The definition of a name. -/
def get? (d : Defaults) (name : String) : Option Json.Value := Json.lookup name d.definitions

/-- The names of the definitions, in ascending order. -/
def names (d : Defaults) : List String := d.definitions.map (·.1)

/-- How many definitions there are. -/
def size (d : Defaults) : Nat := d.definitions.length

/-- Whether two sets of defaults have the same definitions. -/
def same (a b : Defaults) : Bool := Json.Value.sameMembers a.definitions b.definitions

/-- Whether there is a definition of a name, with a given value. -/
def hasDefinition (d : Defaults) (name : String) (value : Json.Value) : Bool :=
  (d.get? name).any (·.same value)

/-- The names whose definitions differ: those of the first set that are missing
from the second or have another value there, and those only in the second. -/
def diff (a b : Defaults) : List String :=
  let changed := a.definitions.filter fun (name, value) => !b.hasDefinition name value
  let added := b.definitions.filter fun (name, _) => (a.get? name).isNone
  (changed.map (·.1) ++ added.map (·.1)).mergeSort fun m n => decide (m ≤ n)

/-- A name has the value that was defined last. -/
theorem get?_insert_self (d : Defaults) (name : String) (value : Json.Value) :
    (d.insert name value).get? name = some value := by
  unfold get? insert
  obtain ⟨members, h⟩ := d
  dsimp only
  clear h
  -- along the members; the value stands before the first greater name, in place of its own, or
  -- further back
  induction members with
  | nil => simp [Json.insertMember, Json.lookup]
  | cons first rest ih =>
    obtain ⟨n, v⟩ := first
    unfold Json.insertMember
    split
    · simp [Json.lookup]
    · split
      · simp [Json.lookup]
      · rename_i hne
        have hne : (n == name) = false := by
          simp only [beq_iff_eq] at hne
          simpa using fun hc => hne hc.symm
        simp [Json.lookup, hne, ih]

end Defaults

end Tenure
