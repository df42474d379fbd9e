import Mathlib.Data.List.Sort
import Tenure.Defaults.Basic
import Tenure.Proofs.Json.Sameness

/-!
# `Tenure.Proofs.Defaults.Difference`: which definitions differ

Two sets of defaults agree on a name when neither defines it, or both give it the same
value. `diff` lists the names on which they do not agree.

* `mem_diff`: these names and no others are listed.
* `pairwise_diff`: each of them once, in ascending order.
-/

set_option autoImplicit false

namespace Tenure

/-! ### Members -/

namespace Json

variable {α : Type} {members : List (String × α)} {name : String} {value : α}

/-- In a list in which no name comes twice a name is looked up as what stands with it. -/
theorem lookup_eq_some_iff (h : Ascending members) :
    lookup name members = some value ↔ (name, value) ∈ members := by
  induction members with
  | nil => simp [lookup]
  | cons first rest ih =>
    obtain ⟨other, v⟩ := first
    obtain ⟨hfirst, hrest⟩ := List.pairwise_cons.mp h
    rw [lookup]
    by_cases hother : other = name
    · subst hother
      have hnot : (other, value) ∉ rest := fun hmem =>
        String.lt_irrefl other (hfirst (other, value) hmem)
      simp [hnot, eq_comm]
    · rw [if_neg (by simpa using hother), ih hrest]
      simp [Ne.symm hother]

/-- A lookup finds something just where the name is one of the members' names. -/
theorem lookup_isSome_iff : (lookup name members).isSome = true ↔ name ∈ members.map Prod.fst := by
  induction members with
  | nil => simp [lookup]
  | cons first rest ih =>
    obtain ⟨other, v⟩ := first
    rw [lookup]
    by_cases hother : other = name
    · simp [hother]
    · rw [if_neg (by simpa using hother), ih]
      simp [Ne.symm hother]

end Json

/-! ### Names that differ -/

namespace Defaults

/-- Neither of two sets of defaults defines a name, or both define it alike. -/
def AgreeAt (a b : Defaults) (name : String) : Prop :=
  Option.Rel (fun v w => v.same w = true) (a.get? name) (b.get? name)

variable {a b : Defaults} {name : String}

/-- A set of defaults has a name just where it holds a value under it. -/
theorem mem_names : name ∈ a.names ↔ (a.get? name).isSome = true :=
  Json.lookup_isSome_iff.symm

/-- No name of a set of defaults is listed twice: its members ascend. -/
theorem nodup_names (a : Defaults) : a.names.Nodup := by
  have hascending : a.names.Pairwise (· < ·) := List.pairwise_map.mpr a.ascending
  exact hascending.imp fun hlt => String.ne_of_lt hlt

/-- What is defined differently, or in the first set only. -/
theorem mem_changed : name ∈ (a.definitions.filter
      fun (name, value) => !b.hasDefinition name value).map Prod.fst
    ↔ (a.get? name).isSome = true ∧ ¬ AgreeAt a b name := by
  simp only [List.mem_map, List.mem_filter, Prod.exists, exists_and_right, exists_eq_right]
  -- a name counts as changed by what is listed here: it is missing over there, or its value differs
  constructor
  · rintro ⟨value, hmem, hother⟩
    have hvalue : a.get? name = some value := (Json.lookup_eq_some_iff a.ascending).mpr hmem
    refine ⟨by simp [hvalue], fun hagree => ?_⟩
    rw [AgreeAt, hvalue] at hagree
    cases hb : b.get? name with
    | none => rw [hb] at hagree; cases hagree
    | some w =>
      rw [hb] at hagree
      cases hagree with
      | some hsame =>
        simp [hasDefinition, hb, Json.Value.same_comm w value, hsame] at hother
  · rintro ⟨hsome, hdiffer⟩
    obtain ⟨value, hvalue⟩ := Option.isSome_iff_exists.mp hsome
    refine ⟨value, (Json.lookup_eq_some_iff a.ascending).mp hvalue, ?_⟩
    cases hb : b.get? name with
    | none => simp [hasDefinition, hb]
    | some w =>
      have hsame : value.same w ≠ true := fun hsame => hdiffer (by
        rw [AgreeAt, hvalue, hb]
        exact .some hsame)
      simpa [hasDefinition, hb, Json.Value.same_comm w value] using hsame

/-- What is defined in the second set only. -/
theorem mem_added : name ∈ (b.definitions.filter
      fun (name, _) => (a.get? name).isNone).map Prod.fst
    ↔ a.get? name = none ∧ ¬ AgreeAt a b name := by
  have hnames : name ∈ b.definitions.map Prod.fst ↔ (b.get? name).isSome = true := mem_names
  simp only [List.mem_map, List.mem_filter, Prod.exists, exists_and_right, exists_eq_right,
    Option.isNone_iff_eq_none] at hnames ⊢
  rw [hnames, and_comm]
  refine and_congr_right fun hnone => ?_
  rw [AgreeAt, hnone]
  cases b.get? name <;> simp

/-- The names that are listed are those on which the two sets do not agree. -/
theorem mem_diff : name ∈ a.diff b ↔ ¬ AgreeAt a b name := by
  simp only [diff, List.mem_mergeSort, List.mem_append, mem_changed, mem_added]
  cases a.get? name <;> simp

/-- They are listed in ascending order, each of them once. -/
theorem pairwise_diff (a b : Defaults) : (a.diff b).Pairwise (· < ·) := by
  have hnodup : (a.diff b).Nodup := by
    refine (List.mergeSort_perm _ _).nodup_iff.mpr (List.nodup_append'.mpr ⟨?_, ?_, ?_⟩)
    · exact (nodup_names a).sublist (List.filter_sublist.map _)
    · exact (nodup_names b).sublist (List.filter_sublist.map _)
    · intro name hchanged hadded
      have hsome := (mem_changed.mp hchanged).1
      rw [(mem_added.mp hadded).1] at hsome
      cases hsome
  have hsorted : (a.diff b).Pairwise fun m n => decide (m ≤ n) = true := by
    refine List.pairwise_mergeSort (fun l m n hlm hmn => ?_) (fun m n => ?_) _
    · exact decide_eq_true (String.le_trans (of_decide_eq_true hlm) (of_decide_eq_true hmn))
    · simpa using String.le_total m n
  refine (hsorted.and hnodup).imp fun {m n} h => String.not_le.mp fun hle => ?_
  exact h.2 (String.le_antisymm (of_decide_eq_true h.1) hle)

end Defaults

end Tenure
