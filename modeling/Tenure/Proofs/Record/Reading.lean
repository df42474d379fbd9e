import Tenure.Store.Directory
import Tenure.Proofs.Record.Codec

/-!
# `Tenure.Proofs.Record.Reading`: which texts are a record

What is written for a record is read back as this record, on several lines or on one.
Other programs may write their records in another order and with fields of their own;
what they must not do is to leave out one of the five fields, to give one twice, or to
give it a value that does not fit, and a store then answers that the record is corrupt.

* `Record.parse?_of_loosens`: the order of the fields and fields with other names do not
  matter.
* `Record.parse?_eq_none_iff`: an object is no record exactly if there is something wrong
  with one of the five fields.
* `Record.reads_exactly`: both, and that records survive being stored.
-/

set_option autoImplicit false

namespace Tenure

open Json

namespace Record

/-! ### The fields of a record -/

/-- What a field holds: a text, or a natural number below a bound. -/
inductive Kind
  | text
  | word (bound : Nat)

/-- The fields of a record. -/
def fields : List (String × Kind) := [
  ("holder_identity", .text),
  ("lease_duration_ms", .word UInt64.size),
  ("acquire_time_ms", .word UInt64.size),
  ("renew_time_ms", .word UInt64.size),
  ("leader_transitions", .word UInt32.size)]

/-- A value does not fit into a field: it has another type, it is a string that stands for
no text, or it is a number with a sign, with a fraction or an exponent, or too large. -/
inductive Kind.Rejects : Kind → Tree → Prop
  | noString {value : Tree} (h : ∀ raw, value ≠ .string raw) : Rejects .text value
  | illegible {raw : List UInt8} (h : textOf? raw = none) : Rejects .text (.string raw)
  | noNumber {bound : Nat} {value : Tree} (h : ∀ n, value ≠ .number n) :
      Rejects (.word bound) value
  | negative {bound : Nat} {n : Literal} (h : n.negative = true) :
      Rejects (.word bound) (.number n)
  | fractional {bound : Nat} {n : Literal} (h : n.fraction ≠ [] ∨ n.exponent ≠ none) :
      Rejects (.word bound) (.number n)
  | tooLarge {bound : Nat} {n : Literal} (h : bound ≤ decimalValue n.whole) :
      Rejects (.word bound) (.number n)

/-- A value is refused as a text just where it does not fit a text field. -/
theorem text?_eq_none_iff (value : Tree) : value.text? = none ↔ Kind.text.Rejects value := by
  cases value with
  | string raw =>
    constructor
    · exact .illegible
    · rintro (h | h)
      · exact absurd rfl (h raw)
      · exact h
  | _ => exact iff_of_true rfl (.noString nofun)

/-- A value is refused as a number just where it does not fit a field with that bound. -/
theorem nat?_eq_none_iff {bound : Nat} (hbound : bound ≤ UInt64.size) (value : Tree) :
    value.nat? bound = none ↔ (Kind.word bound).Rejects value := by
  cases value with
  | number n =>
    rw [Option.eq_none_iff_forall_ne_some]
    constructor
    · intro h
      -- a number is refused for its sign, its fraction, its exponent or its size
      cases hsign : n.negative with
      | true => exact .negative hsign
      | false =>
        by_cases hfraction : n.fraction = []
        · by_cases hexponent : n.exponent = none
          · refine .tooLarge (Nat.le_of_not_lt fun hlt => ?_)
            exact h _ ((Tree.nat?_number_eq_some_iff hbound).mpr
              ⟨hsign, hfraction, hexponent, rfl, hlt⟩)
          · exact .fractional (.inr hexponent)
        · exact .fractional (.inl hfraction)
    · intro hrejects m hm
      obtain ⟨hsign, hfraction, hexponent, rfl, hlt⟩ :=
        (Tree.nat?_number_eq_some_iff hbound).mp hm
      rcases hrejects with _ | _ | h | h | h | h
      · exact absurd rfl (h n)
      · rw [hsign] at h
        cases h
      · exact h.elim (absurd hfraction) (absurd hexponent)
      · exact absurd hlt (Nat.not_lt.mpr h)
  | _ => exact iff_of_true rfl (.noNumber nofun)

/-- A value is refused as a number of sixty-four bits just where it does not fit. -/
theorem word64?_eq_none_iff (value : Tree) :
    word64? value = none ↔ (Kind.word UInt64.size).Rejects value :=
  Option.map_eq_none_iff.trans (nat?_eq_none_iff (Nat.le_refl _) value)

/-- A value is refused as a number of thirty-two bits just where it does not fit. -/
theorem word32?_eq_none_iff (value : Tree) :
    word32? value = none ↔ (Kind.word UInt32.size).Rejects value :=
  Option.map_eq_none_iff.trans (nat?_eq_none_iff (by decide) value)

/-! ### Reading a record -/

/-- There is something wrong with one of the five fields of a record. -/
def Faulty (members : List (String × Tree)) : Prop :=
  ∃ field ∈ fields, Fields.Fault field.2.Rejects members field.1

section

variable {t t' : Tree} {members members' : List (String × Tree)}

/-- Loosening the members of a record changes nothing about how it is read. -/
theorem ofTree?_of_loosens (h : t.members? = some members) (h' : t'.members? = some members')
    (hloose : Loosens (fields.map (·.1)) members' members) : ofTree? t' = ofTree? t := by
  simp only [ofTree?, Tree.fields?_of_members? h, Tree.fields?_of_members? h', Option.bind_eq_bind,
    Option.bind_some]
  -- each of the five fields is read as before
  rw [Fields.required?_of_loosens hloose (by decide) 0,
    Fields.required?_of_loosens hloose (by decide) 1,
    Fields.required?_of_loosens hloose (by decide) 2,
    Fields.required?_of_loosens hloose (by decide) 3,
    Fields.required?_of_loosens hloose (by decide) 4]

/-- One step fails, or the steps after it do, whatever its outcome. -/
theorem bind_eq_none_iff_or {α β : Type} {o : Option α} {f : α → Option β} {failure failures : Prop}
    (h : o = none ↔ failure) (hf : ∀ a, f a = none ↔ failures) :
    o.bind f = none ↔ failure ∨ failures := by
  rw [← h]
  cases o with
  | none => exact iff_of_true rfl (.inl rfl)
  | some a => exact (hf a).trans (or_iff_right nofun).symm

/-- An object is refused as a record just where one of the five fields is faulty. -/
theorem ofTree?_eq_none_iff (h : t.members? = some members) :
    ofTree? t = none ↔ Faulty members := by
  simp only [Faulty, fields, List.mem_cons, List.not_mem_nil, or_false, exists_eq_or_imp,
    exists_eq_left, ofTree?, Tree.fields?_of_members? h, Option.bind_eq_bind, Option.bind_some]
  -- the fields are read one after another, and one that cannot be read ends the reading
  refine bind_eq_none_iff_or (Fields.required?_eq_none_iff text?_eq_none_iff 0) fun holder => ?_
  refine bind_eq_none_iff_or (Fields.required?_eq_none_iff word64?_eq_none_iff 1) fun lease => ?_
  refine bind_eq_none_iff_or (Fields.required?_eq_none_iff word64?_eq_none_iff 2) fun acquired => ?_
  refine bind_eq_none_iff_or (Fields.required?_eq_none_iff word64?_eq_none_iff 3) fun renewed => ?_
  rw [← Fields.required?_eq_none_iff word32?_eq_none_iff 4]
  exact Option.bind_eq_none_iff.trans (by simp [Option.eq_none_iff_forall_ne_some])

/-- Fields in another order, and fields with other names, do not matter. -/
theorem parse?_of_loosens {bytes loose : List UInt8} (h : membersOf? bytes = some members)
    (h' : membersOf? loose = some members')
    (hloose : Loosens (fields.map (·.1)) members' members) : parse? loose = parse? bytes := by
  obtain ⟨t, hparse, hmembers⟩ := exists_of_membersOf? h
  obtain ⟨t', hparse', hmembers'⟩ := exists_of_membersOf? h'
  rw [parse?, parse?, hparse, hparse']
  exact ofTree?_of_loosens hmembers hmembers' hloose

/-- An object is no record exactly if there is something wrong with one of the five
fields. -/
theorem parse?_eq_none_iff {bytes : List UInt8} (h : membersOf? bytes = some members) :
    parse? bytes = none ↔ Faulty members := by
  obtain ⟨t, hparse, hmembers⟩ := exists_of_membersOf? h
  rw [parse?, hparse]
  exact ofTree?_eq_none_iff hmembers

end

end Record

namespace Versioned

/-- Of the record in a file, only what it is read as matters. -/
theorem parse?_congr {bytes loose : List UInt8} {before after : List (String × Tree)}
    {value value' : Tree} (h : membersOf? bytes = some (before ++ ("value", value) :: after))
    (h' : membersOf? loose = some (before ++ ("value", value') :: after))
    (hvalue : Record.ofTree? value' = Record.ofTree? value) : parse? loose = parse? bytes := by
  obtain ⟨t, hparse, hmembers⟩ := exists_of_membersOf? h
  obtain ⟨t', hparse', hmembers'⟩ := exists_of_membersOf? h'
  -- the version is read from a member of another name
  have hname : "value" ≠ "version" := by decide
  have hother : ∀ other : Tree, ("value", other).1 ≠ "version" := fun _ => hname
  simp only [parse?, hparse, hparse', ofTree?, Tree.fields?_of_members? hmembers,
    Tree.fields?_of_members? hmembers', Option.bind_eq_bind, Option.bind_some,
    Fields.required?_append_other before after (hother _),
    Fields.required?_congr hvalue before after]

/-- A file whose record cannot be read cannot be read. -/
theorem parse?_eq_none {bytes : List UInt8} {outer : List (String × Tree)} {value : Tree}
    (h : membersOf? bytes = some outer) (hvalue : ("value", value) ∈ outer)
    (hnone : Record.ofTree? value = none) : parse? bytes = none := by
  obtain ⟨t, hparse, hmembers⟩ := exists_of_membersOf? h
  have hrequired := (Fields.required?_eq_none_iff (fun _ => Iff.rfl) 1).mpr
    (Fields.Fault.wrong value hvalue hnone)
  simp only [parse?, hparse, ofTree?, Tree.fields?_of_members? hmembers, Option.bind_eq_bind,
    Option.bind_some, hrequired, Option.bind_none, Option.bind_fun_none]

end Versioned

namespace Record

/-- A store answers that a record is corrupt if there is something wrong with one of its
five fields. -/
theorem readRecord_of_faulty {files : FileTree} {path : String} {bytes : List UInt8}
    {outer members : List (String × Tree)} {value : Tree} (hread : files.read path = .ok bytes)
    (hbytes : membersOf? bytes = some outer) (hvalue : ("value", value) ∈ outer)
    (hmembers : value.members? = some members) (hfaulty : Faulty members) :
    Store.Directory.readRecord files path = .error .corrupt := by
  have hnone := Versioned.parse?_eq_none hbytes hvalue ((ofTree?_eq_none_iff hmembers).mpr hfaulty)
  simp only [Store.Directory.readRecord, hread, hnone]

/-- Every record and every version is read back from its file, and a record from its text,
whether it stands on several lines or on one. An object is read as a record without regard
to the order of its fields and to fields with other names, also where it is the record of
a file. It is refused exactly if there is something wrong with one of the five fields, and
a store answers to a file with such a record that it is corrupt. -/
theorem reads_exactly :
    (∀ (r : Record) (version : UInt64),
      Versioned.parse? (Versioned.fileBytes ⟨version.toNat, r⟩) = some ⟨version.toNat, r⟩
        ∧ Versioned.parse? (compact (Versioned.toTree ⟨version.toNat, r⟩))
          = some ⟨version.toNat, r⟩
        ∧ parse? (pretty 0 r.toTree) = some r ∧ parse? (compact r.toTree) = some r)
      ∧ (∀ bytes loose members members', membersOf? bytes = some members →
        membersOf? loose = some members' → Loosens (fields.map (·.1)) members' members →
        parse? loose = parse? bytes)
      ∧ (∀ bytes loose before after value value' members members',
        membersOf? bytes = some (before ++ ("value", value) :: after) →
        membersOf? loose = some (before ++ ("value", value') :: after) →
        value.members? = some members → value'.members? = some members' →
        Loosens (fields.map (·.1)) members' members →
        Versioned.parse? loose = Versioned.parse? bytes)
      ∧ (∀ bytes members, membersOf? bytes = some members →
        (parse? bytes = none ↔ Faulty members))
      ∧ ∀ (files : FileTree) (path : String) (bytes : List UInt8) (outer : List (String × Tree))
        (value : Tree) (members : List (String × Tree)), files.read path = .ok bytes →
        membersOf? bytes = some outer → ("value", value) ∈ outer →
        value.members? = some members → Faulty members →
        Store.Directory.readRecord files path = .error .corrupt := by
  refine ⟨fun r version => ?_, fun _ _ _ _ => parse?_of_loosens, ?_,
    fun _ _ => parse?_eq_none_iff, fun _ _ _ _ _ _ => readRecord_of_faulty⟩
  · have hsize : version.toNat < UInt64.size := version.toNat_lt
    have hfile := Versioned.written_toTree ⟨version.toNat, r⟩
    exact ⟨Versioned.parse?_fileBytes hsize, Versioned.parse?_of_spells hsize hfile.spells_compact,
      parse?_of_spells (r.written_toTree.spells_pretty 0),
      parse?_of_spells r.written_toTree.spells_compact⟩
  · intro bytes loose before after value value' members members' h h' hvalue hvalue' hloose
    exact Versioned.parse?_congr h h' (ofTree?_of_loosens hvalue hvalue' hloose)

/-- The fields of a record as they are written. -/
def members (r : Record) : List (String × Tree) := [
  ("holder_identity", .ofText r.holder),
  ("lease_duration_ms", .ofNat r.leaseMillis.toNat),
  ("acquire_time_ms", .ofNat r.acquireTime.toNat),
  ("renew_time_ms", .ofNat r.renewTime.toNat),
  ("leader_transitions", .ofNat r.transitions.toNat)]

/-- The fields of a record can be written compactly. -/
theorem written_members (r : Record) : ∀ m ∈ r.members, Written m.2 := by
  intro m hm
  simp only [members, List.mem_cons, List.not_mem_nil, or_false] at hm
  rcases hm with rfl | rfl | rfl | rfl | rfl
  · exact .ofText _
  all_goals exact .ofNat _

/-- The fields of a record in the opposite order, after one that no record has. -/
def rearranged (r : Record) : List (String × Tree) :=
  ("note", .ofText "kept") :: r.members.reverse

/-- The rearranged fields of a record can be written compactly. -/
theorem written_rearranged (r : Record) : ∀ m ∈ r.rearranged, Written m.2 :=
  List.forall_mem_cons.mpr ⟨.ofText _, fun m hm => r.written_members m (List.mem_reverse.mp hm)⟩

/-- Rearranging the fields, with one that no record has in front, only loosens them. -/
theorem loosens_rearranged (r : Record) : Loosens (fields.map (·.1)) r.rearranged r.members :=
  ⟨[("note", .ofText "kept")],
    ((List.reverse_perm r.members).cons _).trans (List.perm_append_singleton _ _).symm,
    fun m hm => by rw [List.mem_singleton.mp hm]; decide⟩

/-- A second holder before the fields of a record. -/
def doubled (r : Record) : List (String × Tree) :=
  ("holder_identity", .ofText "pod-b") :: r.rearranged

/-- The fields with a second holder can be written compactly. -/
theorem written_doubled (r : Record) : ∀ m ∈ r.doubled, Written m.2 :=
  List.forall_mem_cons.mpr ⟨.ofText _, r.written_rearranged⟩

/-- A second holder makes the fields faulty. -/
theorem faulty_doubled (r : Record) : Faulty r.doubled :=
  ⟨("holder_identity", .text), List.mem_cons_self,
    .repeated (by simp [doubled, rearranged, members])⟩

/-- The seventh version of a record file. -/
def seventh (value : Tree) : List (String × Tree) := [("version", .ofNat 7), ("value", value)]

/-- A record file with any value for its record can be written compactly. -/
theorem written_seventh {value : Tree} (h : Written value) : ∀ m ∈ seventh value, Written m.2 :=
  List.forall_mem_cons.mpr ⟨.ofNat _, List.forall_mem_singleton.mpr h⟩

/-- A leader's record in another order, and one with two holders, alone and in a file. -/
theorem reads_exactly_rearranged :
    let r : Record := ⟨"pod-a", 15000, 1700000000000, 1700000005000, 3⟩
    parse? (compact (.ofMembers r.rearranged)) = some r
      ∧ Versioned.parse? (compact (.ofMembers (seventh (.ofMembers r.rearranged)))) = some ⟨7, r⟩
      ∧ parse? (compact (.ofMembers r.doubled)) = none
      ∧ Store.Directory.readRecord
          ⟨[(["r"], .file (compact (.ofMembers (seventh (.ofMembers r.doubled)))))], []⟩ "r"
        = .error .corrupt := by
  intro r
  obtain ⟨hround, hloose, hfile, hrefused, hstore⟩ := reads_exactly
  have htree : r.toTree.members? = some r.members := Tree.members?_ofMembers _
  have hcompact : membersOf? (compact r.toTree) = some r.members :=
    membersOf?_compact r.written_members
  have hstored : membersOf? (compact (Versioned.toTree ⟨7, r⟩)) = some (seventh r.toTree) :=
    membersOf?_compact (written_seventh r.written_toTree)
  -- the two records that are read are loosened forms of the written one, the other two are faulty
  refine ⟨?_, ?_, ?_, ?_⟩
  · exact (hloose _ _ _ _ hcompact (membersOf?_compact r.written_rearranged)
      r.loosens_rearranged).trans (hround r 7).2.2.2
  · exact (hfile _ _ [("version", .ofNat 7)] [] _ _ _ _ hstored
      (membersOf?_compact (written_seventh (.ofMembers r.written_rearranged))) htree
      (Tree.members?_ofMembers _) r.loosens_rearranged).trans (hround r 7).2.1
  · exact (hrefused _ _ (membersOf?_compact r.written_doubled)).mpr r.faulty_doubled
  · exact hstore _ _ _ _ _ _ rfl
      (membersOf?_compact (written_seventh (.ofMembers r.written_doubled)))
      (List.mem_cons_of_mem _ List.mem_cons_self) (Tree.members?_ofMembers _) r.faulty_doubled

end Record

end Tenure
