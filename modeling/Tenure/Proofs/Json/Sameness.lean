import Tenure.Json.Value

/-!
# `Tenure.Proofs.Json.Sameness`: when two values are the same

Values are compared part by part, and of all parts only zeros can be the same without being
equal: there are two of them in the binary64 format. So two values are the same when they are
equal once every zero has lost its sign.

* `Value.same_iff`: this criterion, from which it follows that sameness is an equivalence.
-/

set_option autoImplicit false

namespace Tenure.Json

/-- The number, with the one zero in place of the other one. -/
def Number.unsigned : Number → Number
  | .integer n => .integer n
  | .decimal x => .decimal (if x.isZero then .zero false else x)

/-- Two numbers count as the same just where they differ at most in the sign of a zero. -/
theorem Number.same_iff (m n : Number) : m.same n = true ↔ m.unsigned = n.unsigned := by
  cases m with
  | integer a => cases n <;> simp [same, unsigned]
  | decimal x =>
    cases n with
    | integer b => simp [same, unsigned]
    | decimal y =>
      simp only [same, unsigned, Binary64.sameValue, Bool.or_eq_true, Bool.and_eq_true,
        beq_iff_eq, decimal.injEq]
      -- a zero is equal to no other number
      have hne {z : Binary64} (hz : z.isZero = false) : z ≠ .zero false := by
        rintro rfl
        cases hz
      cases hx : x.isZero <;> cases hy : y.isZero
      · simp
      · simpa [hne hx] using fun heq : x = y => by simp [heq, hy] at hx
      · simpa [(hne hy).symm] using fun heq : x = y => by simp [heq, hy] at hx
      · simp

mutual

/-- The value, with the one zero in place of the other one in all its parts. -/
def Value.unsigned : Value → Value
  | .null => .null
  | .bool b => .bool b
  | .number n => .number n.unsigned
  | .string s => .string s
  | .array items => .array (unsignedItems items)
  | .object members => .object (unsignedMembers members)

def Value.unsignedItems : List Value → List Value
  | [] => []
  | v :: vs => v.unsigned :: unsignedItems vs

def Value.unsignedMembers : List (String × Value) → List (String × Value)
  | [] => []
  | (name, v) :: rest => (name, v.unsigned) :: unsignedMembers rest

end

mutual

/-- Two values count as the same just where they differ at most in the signs of zeros. -/
theorem Value.same_iff : ∀ v w : Value, v.same w = true ↔ v.unsigned = w.unsigned
  | .null, w => by cases w <;> simp [same, unsigned]
  | .bool a, w => by cases w <;> simp [same, unsigned]
  | .number m, w => by
    cases w with
    | number n => simpa [same, unsigned] using Number.same_iff m n
    | _ => simp [same, unsigned]
  | .string s, w => by cases w <;> simp [same, unsigned]
  | .array items, w => by
    cases w with
    | array others => simpa [same, unsigned] using Value.sameItems_iff items others
    | _ => simp [same, unsigned]
  | .object members, w => by
    cases w with
    | object others => simpa [same, unsigned] using Value.sameMembers_iff members others
    | _ => simp [same, unsigned]

/-- Two arrays' items count as the same just where they do so one by one. -/
theorem Value.sameItems_iff : ∀ vs ws : List Value,
    sameItems vs ws = true ↔ unsignedItems vs = unsignedItems ws
  | [], [] => by simp [sameItems]
  | [], _ :: _ => by simp [sameItems, unsignedItems]
  | _ :: _, [] => by simp [sameItems, unsignedItems]
  | v :: vs, w :: ws => by
    simp [sameItems, unsignedItems, Value.same_iff v w, Value.sameItems_iff vs ws]

/-- Two objects' members count as the same just where names and values do so one by one. -/
theorem Value.sameMembers_iff : ∀ ms ns : List (String × Value),
    sameMembers ms ns = true ↔ unsignedMembers ms = unsignedMembers ns
  | [], [] => by simp [sameMembers]
  | [], _ :: _ => by simp [sameMembers, unsignedMembers]
  | _ :: _, [] => by simp [sameMembers, unsignedMembers]
  | (m, v) :: ms, (n, w) :: ns => by
    simp [sameMembers, unsignedMembers, Value.same_iff v w, Value.sameMembers_iff ms ns,
      and_assoc]

end

/-- Sameness does not depend on which value is read first. -/
theorem Value.same_comm (v w : Value) : v.same w = w.same v := by
  rw [Bool.eq_iff_iff, same_iff, same_iff, eq_comm]

end Tenure.Json
