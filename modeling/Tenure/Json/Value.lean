import Tenure.Json.Tree
import Tenure.Number.Binary64

/-!
# `Tenure.Json.Value`: what a JSON document stands for

A value is a tree whose strings are texts, whose numbers are integers of 64 bits
or binary64 numbers, and whose objects name each member once, in ascending order
of the names; of several members of one name the last one counts. Documents
nested more than 127 levels deep stand for nothing.

A number without fraction and exponent is an integer if it fits; `-0` does not.
Any other number is read in two roundings: its leading digits, as many as fit
into 64 bits, are rounded to binary64, and that is multiplied or divided by a
power of ten. What lies beyond the format is refused.
-/

set_option autoImplicit false

namespace Tenure.Json

/-- A number: an integer of 64 bits, with or without sign, or a binary64
number. -/
inductive Number
  | integer (n : Int)
  | decimal (x : Binary64)
deriving Repr, DecidableEq, Inhabited

/-- Equality of numbers. An integer never equals a binary64 number. -/
def Number.same : Number → Number → Bool
  | .integer a, .integer b => a == b
  | .decimal x, .decimal y => x.sameValue y
  | _, _ => false

/-- What a JSON document stands for. -/
inductive Value
  | null
  | bool (b : Bool)
  | number (n : Number)
  | string (s : String)
  | array (items : List Value)
  | object (members : List (String × Value))
deriving Repr, Inhabited

/-! ### Numbers -/

/-- Takes digits into a significand while it fits into 64 bits. Returns the
significand and the digits left over. -/
def takeDigits (significand : Nat) : List Nat → Nat × List Nat
  | [] => (significand, [])
  | d :: rest =>
    if significand * 10 + d < UInt64.size then takeDigits (significand * 10 + d) rest
    else (significand, d :: rest)

/-- A power of ten, rounded to binary64. -/
def powerOfTen (e : Nat) : Option Binary64 := Binary64.ofNat (Nat.pow 10 e)

/-- A significand times a power of ten, in steps of at most `10 ^ 308`: one
rounding for each step. -/
def scaleTen (x : Binary64) (exponent : Int) : Option Binary64 :=
  if 0 ≤ exponent then
    if exponent ≤ 308 then do x.mul (← powerOfTen exponent.toNat)
    else if x.isZero then some x
    else none
  else if -308 ≤ exponent then do x.div (← powerOfTen (-exponent).toNat)
  else if x.isZero then some x
  else do scaleTen (← x.div (← powerOfTen 308)) (exponent + 308)
termination_by (-exponent).toNat

/-- The value of an exponent, `none` when it does not fit into 31 bits. -/
def exponentValue? (ds : List Nat) : Option Nat :=
  let n := decimalValue ds
  if n < 1 <<< 31 then some n else none

/-- The binary64 number that a literal is read as. -/
def Literal.toBinary64? (n : Literal) : Option Binary64 :=
  let (significand, skipped) := takeDigits 0 n.whole
  let (significand, dropped) := takeDigits significand n.fraction
  let shift : Int := (skipped.length : Int) - ((n.fraction.length - dropped.length : Nat) : Int)
  let unsigned : Option Binary64 :=
    match n.exponent with
    | none => do scaleTen (← Binary64.ofNat significand) shift
    | some (negative, ds) =>
      match exponentValue? ds with
      | some e =>
        do scaleTen (← Binary64.ofNat significand) (if negative then shift - e else shift + e)
      | none => if significand = 0 || negative then some (.zero false) else none
  unsigned.map fun x => if n.negative then x.neg else x

/-- The integer that a literal without fraction and exponent stands for, if it
fits into 64 bits and is not `-0`. -/
def Literal.toInteger? (n : Literal) : Option Int :=
  if !n.fraction.isEmpty || n.exponent.isSome then none
  else
    let m := decimalValue n.whole
    if n.negative then if 0 < m && m ≤ 1 <<< 63 then some (-(m : Int)) else none
    else if m < UInt64.size then some m else none

/-- The number that a literal stands for. -/
def Literal.toNumber? (n : Literal) : Option Number :=
  match n.toInteger? with
  | some i => some (.integer i)
  | none => n.toBinary64?.map .decimal

/-! ### Objects -/

/-- Puts a member into a list sorted by name, in place of one of the same
name. -/
def insertMember {α : Type} (name : String) (value : α) :
    List (String × α) → List (String × α)
  | [] => [(name, value)]
  | (n, v) :: rest =>
    if name < n then (name, value) :: (n, v) :: rest
    else if name == n then (name, value) :: rest
    else (n, v) :: insertMember name value rest

/-- The names of a list of members ascend, and no name comes twice. -/
def Ascending {α : Type} (members : List (String × α)) : Prop :=
  members.Pairwise fun a b => a.1 < b.1

/-- By inserting a member no other one is new. -/
theorem mem_insertMember {α : Type} {name : String} {value : α} {members : List (String × α)}
    {m : String × α} (h : m ∈ insertMember name value members) :
    m = (name, value) ∨ m ∈ members := by
  induction members with
  | nil => simpa [insertMember] using h
  | cons first rest ih =>
    obtain ⟨n, v⟩ := first
    unfold insertMember at h
    split at h
    · simpa using h
    · split at h
      · rcases List.mem_cons.1 h with h | h
        · exact .inl h
        · exact .inr (List.mem_cons_of_mem _ h)
      · rcases List.mem_cons.1 h with h | h
        · exact .inr (h ▸ List.mem_cons_self)
        · rcases ih h with h | h
          · exact .inl h
          · exact .inr (List.mem_cons_of_mem _ h)

/-- Names stay in ascending order, each of them once, when a member is inserted. -/
theorem ascending_insertMember {α : Type} (name : String) (value : α)
    {members : List (String × α)} (h : Ascending members) :
    Ascending (insertMember name value members) := by
  induction members with
  | nil => simp [insertMember, Ascending]
  | cons first rest ih =>
    obtain ⟨n, v⟩ := first
    obtain ⟨hfirst, hrest⟩ := List.pairwise_cons.1 h
    unfold insertMember
    split
    · -- in front of the first member: what follows is greater than that, and so greater than the
      -- name
      rename_i hlt
      refine List.pairwise_cons.2 ⟨fun m hm => ?_, h⟩
      rcases List.mem_cons.1 hm with rfl | hm
      · exact hlt
      · exact String.lt_trans hlt (hfirst m hm)
    · split
      · -- in place of a member of the same name, which is as great
        rename_i heq
        have : name = n := by simpa using heq
        subst this
        exact List.pairwise_cons.2 ⟨hfirst, hrest⟩
      · -- behind the first member: the name is greater, being neither smaller nor the same
        rename_i hnlt hne
        refine List.pairwise_cons.2 ⟨fun m hm => ?_, ih hrest⟩
        rcases mem_insertMember hm with rfl | hm
        · refine String.not_le.1 fun hle => hne ?_
          simpa using String.le_antisymm hle (String.not_lt.1 hnlt)
        · exact hfirst m hm

/-- The member of a name. -/
def lookup {α : Type} (name : String) : List (String × α) → Option α
  | [] => none
  | (n, v) :: rest => if n == name then some v else lookup name rest

/-! ### Values -/

mutual

/-- What a tree stands for, if it is nested at most `depth` levels deep. -/
def Value.ofTree? : Nat → Tree → Option Value
  | _, .null => some .null
  | _, .bool b => some (.bool b)
  | _, .number n => n.toNumber?.map .number
  | _, .string raw => (textOf? raw).map .string
  | 0, .array _ => none
  | depth + 1, .array items => (Value.ofItems? depth items).map .array
  | 0, .object _ => none
  | depth + 1, .object members => (Value.ofMembers? depth members []).map .object

def Value.ofItems? : Nat → List Tree → Option (List Value)
  | _, [] => some []
  | depth, item :: rest =>
    match Value.ofTree? depth item, Value.ofItems? depth rest with
    | some v, some vs => some (v :: vs)
    | _, _ => none

def Value.ofMembers? : Nat → List (List UInt8 × Tree) → List (String × Value) →
    Option (List (String × Value))
  | _, [], acc => some acc
  | depth, (raw, tree) :: rest, acc =>
    match textOf? raw, Value.ofTree? depth tree with
    | some name, some v => Value.ofMembers? depth rest (insertMember name v acc)
    | _, _ => none

end

/-- The deepest nesting that a value may have. -/
def Value.depthLimit : Nat := 127

/-- What a document stands for. -/
def Value.parse? (s : List UInt8) : Option Value := do Value.ofTree? Value.depthLimit (← parse s)

mutual

/-- Equality of values. -/
def Value.same : Value → Value → Bool
  | .null, .null => true
  | .bool a, .bool b => a == b
  | .number a, .number b => a.same b
  | .string a, .string b => a == b
  | .array a, .array b => Value.sameItems a b
  | .object a, .object b => Value.sameMembers a b
  | _, _ => false

def Value.sameItems : List Value → List Value → Bool
  | [], [] => true
  | a :: as, b :: bs => a.same b && Value.sameItems as bs
  | _, _ => false

def Value.sameMembers : List (String × Value) → List (String × Value) → Bool
  | [], [] => true
  | (n, a) :: as, (m, b) :: bs => n == m && a.same b && Value.sameMembers as bs
  | _, _ => false

end

end Tenure.Json
