import Tenure.Proofs.Json.Compact
import Tenure.Json.Decode

/-!
# `Tenure.Proofs.Json.Members`: what an object has to say about its fields

A structure that is written as an object is read by asking for each field by its name.
The answer does not depend on the order of the members, nor on members whose names
nobody asks for, and a field that has to be there is read exactly if it is there once and
its value can be read.

* `Fields.field?_of_loosens`: members in another order, and others among them, do not
  matter.
* `Fields.required?_eq_none_iff`: what is wrong with a field that cannot be read.
* `Tree.nat?_number_eq_some_iff`: which numbers are natural numbers below a bound.
-/

set_option autoImplicit false

namespace Tenure.Json

/-! ### The members of an object -/

/-- The members of an object, with their names as texts. -/
def Tree.members? : Tree → Option (List (String × Tree))
  | .object members => namedMembers? members
  | _ => none

/-- The members of the object that a text spells. -/
def membersOf? (bytes : List UInt8) : Option (List (String × Tree)) := do
  (← parse bytes).members?

/-- An object gives back the members it was made of: escaping a name is undone. -/
theorem Tree.members?_ofMembers (members : List (String × Tree)) :
    (Tree.ofMembers members).members? = some members := by
  show namedMembers? (members.map fun m => (escape m.1, m.2)) = some members
  induction members with
  | nil => rfl
  | cons m members ih => simp [namedMembers?, textOf?_escape, ih]

/-- An object is read as a structure through its members, however many fields it has. -/
theorem Tree.fields?_of_members? {t : Tree} {members : List (String × Tree)}
    (h : t.members? = some members) (count : Nat) : t.fields? count = some (.named members) := by
  cases t with
  | object raw =>
    have hnames : namedMembers? raw = some members := h
    rw [Tree.fields?, hnames]
    rfl
  | _ => cases h

/-- An object written compactly is read back member for member. -/
theorem membersOf?_compact {members : List (String × Tree)} (h : ∀ m ∈ members, Written m.2) :
    membersOf? (compact (.ofMembers members)) = some members := by
  rw [membersOf?, (Written.ofMembers h).spells_compact.parse]
  exact Tree.members?_ofMembers members

/-- Bytes that give members parse as an object with these members. -/
theorem exists_of_membersOf? {bytes : List UInt8} {members : List (String × Tree)}
    (h : membersOf? bytes = some members) :
    ∃ t, parse bytes = some t ∧ t.members? = some members := Option.bind_eq_some_iff.mp h

/-! ### Numbers -/

/-- A number is a natural number if it has no sign, no fraction and no exponent, and fits
into 64 bits. -/
theorem Literal.toInteger?_eq_ofNat_iff {n : Literal} {m : Nat} :
    n.toInteger? = some (.ofNat m) ↔ n.negative = false ∧ n.fraction = [] ∧ n.exponent = none
      ∧ decimalValue n.whole = m ∧ m < UInt64.size := by
  obtain ⟨negative, whole, fraction, exponent⟩ := n
  have hnegative : ∀ k : Nat, 0 < k → ¬ -(k : Int) = .ofNat m := fun k hk => by
    rw [Int.ofNat_eq_natCast]
    omega
  cases negative with
  | true =>
    simp only [toInteger?, Bool.true_eq_false, false_and, iff_false]
    split
    · exact nofun
    · simp only [if_true]
      split
      · rename_i hrange
        simp only [Bool.and_eq_true, decide_eq_true_eq] at hrange
        exact fun h => hnegative _ hrange.1 (Option.some.inj h)
      · exact nofun
  | false => simp [toInteger?]; grind

/-- A number below a bound is one that is read as such. -/
theorem Tree.nat?_number_eq_some_iff {bound : Nat} (hbound : bound ≤ UInt64.size) {n : Literal}
    {m : Nat} : (Tree.number n).nat? bound = some m ↔ n.negative = false ∧ n.fraction = []
      ∧ n.exponent = none ∧ decimalValue n.whole = m ∧ m < bound := by
  simp only [Tree.nat?]
  split
  · rename_i k hk
    obtain ⟨hsign, hfraction, hexponent, hvalue, hsize⟩ := Literal.toInteger?_eq_ofNat_iff.mp hk
    simp only [hsign, hfraction, hexponent, hvalue, true_and]
    constructor
    · intro h
      split at h
      · cases h
        exact ⟨rfl, ‹_›⟩
      · cases h
    · rintro ⟨rfl, hlt⟩
      rw [if_pos hlt]
  · rename_i hnone
    -- a literal that is a natural number below the bound would be one of sixty-four bits
    refine iff_of_false nofun ?_
    rintro ⟨hsign, hfraction, hexponent, hvalue, hlt⟩
    exact hnone m (Literal.toInteger?_eq_ofNat_iff.mpr
      ⟨hsign, hfraction, hexponent, hvalue, Nat.lt_of_lt_of_le hlt hbound⟩)

/-! ### Members that do not matter -/

/-- These members are those in some order, and between them others whose names are not
among the given ones. -/
def Loosens (names : List String) (loose members : List (String × Tree)) : Prop :=
  ∃ extra : List (String × Tree), loose.Perm (members ++ extra) ∧ ∀ m ∈ extra, m.1 ∉ names

namespace Fields

variable {members loose : List (String × Tree)} {name : String}

/-- The order of an object's members does not matter to a field that is looked up by name. -/
theorem field?_of_perm (h : loose.Perm members) (index : Nat) (name : String) :
    (named loose).field? index name = (named members).field? index name := by
  have hfilter := h.filter (·.1 == name)
  simp only [field?]
  -- only how many members have the name counts, and which one if there is just one
  generalize loose.filter (·.1 == name) = found at hfilter ⊢
  generalize members.filter (·.1 == name) = found' at hfilter ⊢
  match found, found', hfilter with
  | _, [], hfilter => rw [hfilter.eq_nil]
  | _, [m], hfilter => rw [List.perm_singleton.mp hfilter]
  | [], _ :: _ :: _, hfilter => cases hfilter.length_eq
  | [_], _ :: _ :: _, hfilter => cases hfilter.length_eq
  | _ :: _ :: _, _ :: _ :: _, _ => rfl

/-- Members in another order, and others among them, do not matter to a field. -/
theorem field?_of_loosens {names : List String} (h : Loosens names loose members)
    (hname : name ∈ names) (index : Nat) :
    (named loose).field? index name = (named members).field? index name := by
  obtain ⟨extra, hperm, hextra⟩ := h
  have hnone : extra.filter (·.1 == name) = [] := by
    refine List.filter_eq_nil_iff.mpr fun m hm heq => ?_
    rw [beq_iff_eq] at heq
    exact hextra m hm (heq ▸ hname)
  rw [field?_of_perm hperm]
  simp only [field?, List.filter_append, hnone, List.append_nil]

/-- Loosening members leaves every required field that is among the kept names. -/
theorem required?_of_loosens {α : Type} {names : List String} (h : Loosens names loose members)
    (hname : name ∈ names) (index : Nat) (decode : Tree → Option α) :
    (named loose).required? index name decode = (named members).required? index name decode := by
  rw [required?, required?, field?_of_loosens h hname]

/-- A member of another name does not matter to a required field. -/
theorem required?_append_other {α : Type} (before after : List (String × Tree))
    {other : String × Tree} (h : other.1 ≠ name) (index : Nat) (decode : Tree → Option α) :
    (named (before ++ other :: after)).required? index name decode
      = (named (before ++ after)).required? index name decode := by
  rw [required?, required?, field?_append_other before after other index name h]

/-! ### Fields that cannot be read -/

/-- What is wrong with a field that has to be there: there is no member of its name, or
there are several, or one whose value is bad. -/
inductive Fault (bad : Tree → Prop) (members : List (String × Tree)) (name : String) : Prop
  | missing (h : ∀ m ∈ members, m.1 ≠ name)
  | repeated (h : 1 < members.countP (·.1 == name))
  | wrong (value : Tree) (hmem : (name, value) ∈ members) (hbad : bad value)

/-- A field that has to be there cannot be read exactly if there is something wrong with
it. -/
theorem required?_eq_none_iff {α : Type} {decode : Tree → Option α} {bad : Tree → Prop}
    (hbad : ∀ value, decode value = none ↔ bad value) (index : Nat) :
    (named members).required? index name decode = none ↔ Fault bad members name := by
  simp only [required?, field?]
  rcases hfilter : members.filter (·.1 == name) with _ | ⟨⟨found, value⟩, _ | ⟨next, rest⟩⟩
    <;> rw [hfilter]
  · -- no member has the name
    refine iff_of_true rfl (.missing fun m hm hname => ?_)
    exact List.filter_eq_nil_iff.mp hfilter m hm (beq_iff_eq.mpr hname)
  · -- one has, and its value is what is read
    have honly : ∀ m, m ∈ members ∧ m.1 = name ↔ m = (found, value) := by
      intro m
      rw [← List.mem_singleton (a := m), ← hfilter, List.mem_filter, beq_iff_eq]
    obtain ⟨hmem, rfl⟩ : (found, value) ∈ members ∧ found = name := (honly _).mpr rfl
    show decode value = none ↔ _
    rw [hbad]
    constructor
    · exact .wrong value hmem
    · rintro (hmissing | hrepeated | ⟨other, hother, hvalue⟩)
      · exact absurd rfl (hmissing _ hmem)
      · rw [List.countP_eq_length_filter, hfilter] at hrepeated
        exact absurd hrepeated (Nat.lt_irrefl 1)
      · cases (honly (found, other)).mp ⟨hother, rfl⟩
        exact hvalue
  · -- several have
    refine iff_of_true rfl (.repeated ?_)
    rw [List.countP_eq_length_filter, hfilter]
    exact Nat.succ_lt_succ (Nat.succ_pos _)

/-- Of a member, only what is read from its value matters. -/
theorem required?_congr {α : Type} {decode : Tree → Option α} {value value' : Tree}
    (h : decode value' = decode value) (before after : List (String × Tree)) (index : Nat)
    (name : String) :
    (named (before ++ (name, value') :: after)).required? index name decode
      = (named (before ++ (name, value) :: after)).required? index name decode := by
  simp only [required?, field?, List.filter_append, List.filter_cons, beq_self_eq_true, if_true]
  generalize before.filter (·.1 == name) = earlier
  generalize after.filter (·.1 == name) = later
  match earlier, later with
  | [], [] => exact h
  | [], _ :: _ => rfl
  | [_], _ => rfl
  | _ :: _ :: _, _ => rfl

end Fields

end Tenure.Json
