import Tenure.Proofs.Defaults.Difference

/-!
# `Tenure.Proofs.Defaults.Distance`: the names that differ, as a distance

To agree on a name is an equivalence between sets of defaults, since to be the same is one
between values. So the names on which two sets differ are a distance: it does not matter which
of the two comes first, nothing differs only between sets that are the same, and what differs
between two ends of a way differs on a part of it.

* `AgreeAt.refl`, `AgreeAt.symm`, `AgreeAt.trans`: agreement is an equivalence.
* `same_iff_agreeAt`: sets of defaults are the same when they agree on every name.
* `diff_symmetricDifference`: what `diff` lists, and the laws of a distance.
-/

set_option autoImplicit false

namespace Tenure

namespace Json

variable {α : Type} {ms ns : List (String × α)} {name : String}

/-- Members in ascending order are told apart by what a name is looked up as. -/
theorem Ascending.eq_of_lookup (hm : Ascending ms) (hn : Ascending ns)
    (h : ∀ name, lookup name ms = lookup name ns) : ms = ns := by
  have hperm : ms.Perm ns := by
    refine (List.perm_ext_iff_of_nodup ?_ ?_).mpr fun ⟨name, value⟩ => ?_
    · exact hm.imp fun {a b} hlt heq => String.ne_of_lt hlt (congrArg Prod.fst heq)
    · exact hn.imp fun {a b} hlt heq => String.ne_of_lt hlt (congrArg Prod.fst heq)
    · rw [← lookup_eq_some_iff hm, ← lookup_eq_some_iff hn, h]
  exact hperm.eq_of_pairwise (fun _ _ _ _ hab hba => absurd hba (String.lt_asymm hab)) hm hn

/-- Members lose the signs of their zeros one by one, and keep their names. -/
theorem unsignedMembers_eq_map (members : List (String × Value)) :
    Value.unsignedMembers members = members.map fun (name, v) => (name, v.unsigned) := by
  induction members with
  | nil => rfl
  | cons first rest ih =>
    obtain ⟨other, v⟩ := first
    rw [Value.unsignedMembers, ih, List.map_cons]

/-- Looking a name up commutes with taking the signs of zeros away. -/
theorem lookup_unsignedMembers (name : String) (members : List (String × Value)) :
    lookup name (Value.unsignedMembers members) = (lookup name members).map Value.unsigned := by
  induction members with
  | nil => rfl
  | cons first rest ih =>
    obtain ⟨other, v⟩ := first
    rw [Value.unsignedMembers, lookup, lookup, ih]
    split <;> rfl

/-- Members stay in order of their names without the signs of zeros. -/
theorem ascending_unsignedMembers {members : List (String × Value)} (h : Ascending members) :
    Ascending (Value.unsignedMembers members) := by
  rw [unsignedMembers_eq_map]
  exact List.pairwise_map.mpr h

end Json

namespace Defaults

variable {a b c : Defaults} {name : String}

/-! ### Agreement -/

/-- Agreement at a name is equality of the two values there up to the signs of zeros, so it
inherits the laws of equality. -/
theorem agreeAt_iff : AgreeAt a b name
    ↔ (a.get? name).map Json.Value.unsigned = (b.get? name).map Json.Value.unsigned := by
  unfold AgreeAt
  cases a.get? name <;> cases b.get? name <;> simp [Json.Value.same_iff]

/-- Agreement at a name does not depend on which side is read first. -/
theorem AgreeAt.symm (h : AgreeAt a b name) : AgreeAt b a name :=
  agreeAt_iff.mpr (agreeAt_iff.mp h).symm

/-- Agreement at a name passes through a third set of defaults. -/
theorem AgreeAt.trans (h : AgreeAt a b name) (h' : AgreeAt b c name) : AgreeAt a c name :=
  agreeAt_iff.mpr ((agreeAt_iff.mp h).trans (agreeAt_iff.mp h'))

/-- Sets of defaults are the same when they agree on every name. -/
theorem same_iff_agreeAt : a.same b = true ↔ ∀ name, AgreeAt a b name := by
  rw [same, Json.Value.sameMembers_iff]
  constructor
  · intro heq name
    rw [agreeAt_iff, get?, get?, ← Json.lookup_unsignedMembers, heq, Json.lookup_unsignedMembers]
  · intro hagree
    refine (Json.ascending_unsignedMembers a.ascending).eq_of_lookup
      (Json.ascending_unsignedMembers b.ascending) fun name => ?_
    rw [Json.lookup_unsignedMembers, Json.lookup_unsignedMembers]
    exact agreeAt_iff.mp (hagree name)

/-! ### The names that differ -/

/-- The difference names the same entries in the same order from either side. -/
theorem diff_comm (a b : Defaults) : a.diff b = b.diff a := by
  refine (pairwise_diff a b).eq_of_mem_iff (pairwise_diff b a) fun name => ?_
  rw [mem_diff, mem_diff]
  exact not_congr ⟨AgreeAt.symm, AgreeAt.symm⟩

/-- Nothing differs just where the two sets of defaults are equal. -/
theorem diff_eq_nil_iff : a.diff b = [] ↔ a.same b = true := by
  simp only [List.eq_nil_iff_forall_not_mem, mem_diff, not_not, same_iff_agreeAt]

/-- What two sets differ in, one of them differs in from any third one. -/
theorem mem_diff_or_mem_diff (b : Defaults) (h : name ∈ a.diff c) :
    name ∈ a.diff b ∨ name ∈ b.diff c := by
  rw [mem_diff] at h
  rw [mem_diff, mem_diff]
  by_cases hab : AgreeAt a b name
  · exact .inr fun hbc => h (hab.trans hbc)
  · exact .inl hab

/-- The names that are listed ascend, so that none comes twice, and they are those that do not
have the same definition on both sides. The order of the two sides does not matter, nothing is
listed exactly when the two are the same, and what is listed between two sets is listed between
one of them and any third one. -/
theorem diff_symmetricDifference (a b c : Defaults) :
    (a.diff b).Pairwise (· < ·)
      ∧ (∀ name, name ∈ a.diff b
        ↔ ¬ Option.Rel (fun v w => v.same w = true) (a.get? name) (b.get? name))
      ∧ a.diff b = b.diff a
      ∧ (a.diff b = [] ↔ a.same b = true)
      ∧ ∀ name, name ∈ a.diff c → name ∈ a.diff b ∨ name ∈ b.diff c :=
  ⟨pairwise_diff a b, fun _ => mem_diff, diff_comm a b, diff_eq_nil_iff,
    fun _ => mem_diff_or_mem_diff b⟩

/-- One definition under a name. -/
def lone (name : String) (value : Json.Value) : Defaults := ofList [(name, value)]

/-- A definition has moved to another name. The two sets are not the same, and its old name is
listed between one of them and the empty set. -/
theorem diff_symmetricDifference_moved :
    "cpu" ∈ (lone "cpu" .null).diff (lone "memory" .null)
      ∧ ("cpu" ∈ (lone "cpu" .null).diff empty ∨ "cpu" ∈ empty.diff (lone "memory" .null))
      ∧ (lone "cpu" .null).same (lone "memory" .null) ≠ true := by
  have hcpu : (lone "cpu" .null).get? "cpu" = some .null := rfl
  have hmemory : (lone "memory" .null).get? "cpu" = none := rfl
  obtain ⟨-, hmem, -, hnil, -⟩ :=
    diff_symmetricDifference (lone "cpu" .null) (lone "memory" .null) empty
  obtain ⟨-, -, -, -, hthird⟩ :=
    diff_symmetricDifference (lone "cpu" .null) empty (lone "memory" .null)
  have hdiffers : "cpu" ∈ (lone "cpu" .null).diff (lone "memory" .null) := by
    rw [hmem, hcpu, hmemory]
    exact nofun
  refine ⟨hdiffers, hthird _ hdiffers, fun hsame => ?_⟩
  rw [hnil.mpr hsame] at hdiffers
  cases hdiffers

end Defaults

end Tenure
