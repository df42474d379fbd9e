import Tenure.Record.Codec
import Tenure.Proofs.Json.Members

/-!
# `Tenure.Proofs.Record.Codec`: records survive being stored

* `Record.ofTree?_toTree`: a record is read back from its tree.
* `Versioned.parse?_fileBytes`: a record and its version are read back from the
  bytes of their file, as long as the version fits into 64 bits.
-/

set_option autoImplicit false

namespace Tenure

open Json

namespace Json

/-- The members of an object are found under their names. -/
theorem fields?_ofMembers (count : Nat) (members : List (String × Tree)) :
    (Tree.ofMembers members).fields? count = some (.named members) :=
  Tree.fields?_of_members? (Tree.members?_ofMembers members) count

/-- A number below the bound of its field is read back. -/
theorem nat?_ofNat {bound n : Nat} (hbound : bound ≤ UInt64.size) (h : n < bound) :
    (Tree.ofNat n).nat? bound = some n :=
  (Tree.nat?_number_eq_some_iff hbound).mpr ⟨rfl, rfl, rfl, decimalValue_digits n, h⟩

/-- A text is read back, escapes undone. -/
theorem text?_ofText (s : String) : (Tree.ofText s).text? = some s := textOf?_escape s

end Json

namespace Record

/-- Every number of sixty-four bits is read back. -/
theorem word64?_ofNat (n : UInt64) : word64? (.ofNat n.toNat) = some n := by
  simp [word64?, nat?_ofNat (Nat.le_refl _) n.toNat_lt]

/-- Every number of thirty-two bits is read back. -/
theorem word32?_ofNat (n : UInt32) : word32? (.ofNat n.toNat) = some n := by
  simp [word32?, nat?_ofNat (show UInt32.size ≤ UInt64.size by decide) n.toNat_lt]

/-- A record is read back as it was written. -/
theorem ofTree?_toTree (r : Record) : ofTree? r.toTree = some r := by
  simp [ofTree?, toTree, fields?_ofMembers, Fields.required?, Fields.field?, text?_ofText,
    word64?_ofNat, word32?_ofNat]

/-- What is written for a record can be written compactly. -/
theorem written_toTree (r : Record) : Written r.toTree := by
  refine .ofMembers fun m hm => ?_
  simp only [List.mem_cons, List.not_mem_nil, or_false] at hm
  rcases hm with rfl | rfl | rfl | rfl | rfl
  · exact .ofText _
  all_goals exact .ofNat _

/-- A record is read back from any spelling of its tree. -/
theorem parse?_of_spells {r : Record} {bytes : List UInt8} (h : Spells bytes r.toTree) :
    parse? bytes = some r := by
  rw [parse?, h.parse]
  exact r.ofTree?_toTree

end Record

namespace Versioned

/-- A record with its version is read back, if the version has sixty-four bits. -/
theorem ofTree?_toTree {v : Versioned Record} (h : v.version < UInt64.size) :
    ofTree? v.toTree = some v := by
  simp [ofTree?, toTree, fields?_ofMembers, Fields.required?, Fields.field?,
    nat?_ofNat (Nat.le_refl _) h, Record.ofTree?_toTree]

/-- What is written for a record with its version can be written compactly. -/
theorem written_toTree (v : Versioned Record) : Written v.toTree := by
  refine .ofMembers fun m hm => ?_
  simp only [List.mem_cons, List.not_mem_nil, or_false] at hm
  rcases hm with rfl | rfl
  · exact .ofNat _
  · exact v.value.written_toTree

/-- A record and its version are read back from any spelling of their tree. -/
theorem parse?_of_spells {v : Versioned Record} (hv : v.version < UInt64.size)
    {bytes : List UInt8} (h : Spells bytes v.toTree) : parse? bytes = some v := by
  rw [parse?, h.parse]
  exact ofTree?_toTree hv

/-- A record file is read back as what was written. -/
theorem parse?_fileBytes {v : Versioned Record} (h : v.version < UInt64.size) :
    parse? v.fileBytes = some v :=
  parse?_of_spells h (v.written_toTree.spells_pretty 0)

end Versioned

end Tenure
