import Tenure.Proofs.Record.Codec
import Tenure.Status.Document

/-!
# `Tenure.Proofs.Status.Codec`: documents survive being published

A document leaves out the empty texts of its conditions and of its objects, and its
reader takes a missing text for an empty one, so nothing is lost. Other texts may be
read as the same document: with the fields in another order, with empty texts written
out, with other spaces. What is written for the document is the normal form of them all.

* `Document.parse?_fileBytes`: a document is read back from the bytes of its file.
* `Condition.hasMember_toTree` and `RelatedObject.hasMember_toTree`: which texts are left
  out.
* `Document.reads_back`: what is left out of a file, and that the bytes of a file are
  the normal form of every text that is read as its document.
-/

set_option autoImplicit false

namespace Tenure.Status

open Json

/-! ### Names -/

/-- The name of a condition is read back. -/
theorem ConditionType.ofName?_name (type : ConditionType) : ofName? type.name = some type := by
  cases type <;> rfl

/-- The name of a status is read back. -/
theorem Standing.ofName?_name (standing : Standing) : ofName? standing.name = some standing := by
  cases standing <;> rfl

/-- The name of a phase is read back. -/
theorem Phase.ofName?_name (phase : Phase) : ofName? phase.name = some phase := by
  cases phase <;> rfl

/-! ### Parts of a tree -/

/-- The text of a variant is read back, escapes undone. -/
theorem variant?_ofText (s : String) : (Tree.ofText s).variant? = some s := textOf?_escape s

/-- Every time of sixty-four bits is read back. -/
theorem millis?_ofNat (n : UInt64) : millis? (.ofNat n.toNat) = some n := by
  simp [millis?, nat?_ofNat (Nat.le_refl _) n.toNat_lt]

/-- A list is read back item by item. -/
theorem list?_map {α : Type} {encode : α → Tree} {decode : Tree → Option α}
    (h : ∀ a, decode (encode a) = some a) (items : List α) :
    (Tree.array (items.map encode)).list? decode = some items := by
  show (items.map encode).mapM decode = some items
  induction items with
  | nil => rfl
  | cons a items ih => simp [h, ih]

section

variable {name : String} {members : List (String × Tree)}

/-- Under its own name a text is found if it is not empty. -/
theorem filter_unlessEmpty_self (name text : String) :
    (unlessEmpty name text).filter (·.1 == name) = unlessEmpty name text := by
  unfold unlessEmpty
  split <;> simp

/-- Under other names a text is never found. -/
theorem filter_unlessEmpty_other {other : String} (h : other ≠ name) (text : String) :
    (unlessEmpty other text).filter (·.1 == name) = [] := by
  unfold unlessEmpty
  split <;> simp [h]

/-- A required field with one member of its name is what that member says. -/
theorem required?_of_single {α : Type} {tree : Tree}
    (h : members.filter (·.1 == name) = [(name, tree)]) (index : Nat) (decode : Tree → Option α) :
    (Fields.named members).required? index name decode = decode tree := by
  simp only [Fields.required?, Fields.field?, h]

/-- A text that was left out because it is empty is read as the empty one. -/
theorem optional?_of_unlessEmpty {text : String}
    (h : members.filter (·.1 == name) = unlessEmpty name text) (index : Nat) :
    (Fields.named members).optional? index name Tree.text? "" = some text := by
  simp only [Fields.optional?, Fields.field?, h, unlessEmpty]
  by_cases hempty : text = ""
  · -- there is no such member, and what is missing is the empty text
    subst hempty
    rfl
  · simp [hempty, text?_ofText]

/-- An optional field with one member of its name is what that member says. -/
theorem optional?_of_single {α : Type} {tree : Tree}
    (h : members.filter (·.1 == name) = [(name, tree)]) (index : Nat) (decode : Tree → Option α)
    (missing : α) : (Fields.named members).optional? index name decode missing = decode tree := by
  simp only [Fields.optional?, Fields.field?, h]

end

/-- A text that may be left out can be written compactly. -/
theorem written_unlessEmpty (name text : String) : ∀ m ∈ unlessEmpty name text, Written m.2 := by
  unfold unlessEmpty
  split
  · exact fun _ hm => absurd hm List.not_mem_nil
  · exact List.forall_mem_singleton.mpr (.ofText text)

/-- An object has a member of this name. -/
def HasMember (t : Tree) (name : String) : Prop :=
  ∃ members, t.members? = some members ∧ members.filter (·.1 == name) ≠ []

/-- An object has a member just where one of the members it was made of has the name. -/
theorem hasMember_ofMembers (members : List (String × Tree)) (name : String) :
    HasMember (.ofMembers members) name ↔ members.filter (·.1 == name) ≠ [] := by
  simp only [HasMember, Tree.members?_ofMembers, Option.some.injEq, exists_eq_left']

/-- A text is written just where it is not empty. -/
theorem unlessEmpty_ne_nil_iff (name text : String) : unlessEmpty name text ≠ [] ↔ text ≠ "" := by
  simp [unlessEmpty]

/-! ### Conditions and objects -/

namespace Condition

/-- The members of a condition as it is written. -/
def members (c : Condition) : List (String × Tree) :=
  [("type", .ofText c.type.name), ("status", .ofText c.status.name)]
    ++ unlessEmpty "reason" c.reason ++ unlessEmpty "message" c.message
    ++ [("last_transition_ms", .ofNat c.since.toNat)]

/-- A condition is written as an object with its members. -/
theorem fields?_toTree (c : Condition) : c.toTree.fields? 5 = some (.named c.members) :=
  fields?_ofMembers 5 c.members

/-- Each field of a condition is written once, and the two texts only if they are not empty. -/
theorem filter_members (c : Condition) :
    c.members.filter (·.1 == "type") = [("type", .ofText c.type.name)]
      ∧ c.members.filter (·.1 == "status") = [("status", .ofText c.status.name)]
      ∧ c.members.filter (·.1 == "reason") = unlessEmpty "reason" c.reason
      ∧ c.members.filter (·.1 == "message") = unlessEmpty "message" c.message
      ∧ c.members.filter (·.1 == "last_transition_ms")
        = [("last_transition_ms", .ofNat c.since.toNat)] := by
  simp [members, filter_unlessEmpty_self, filter_unlessEmpty_other]

/-- A condition is read back as it was written. -/
theorem ofTree?_toTree (c : Condition) : ofTree? c.toTree = some c := by
  obtain ⟨htype, hstatus, hreason, hmessage, hsince⟩ := c.filter_members
  simp only [ofTree?, c.fields?_toTree, required?_of_single htype, required?_of_single hstatus,
    optional?_of_unlessEmpty hreason, optional?_of_unlessEmpty hmessage, required?_of_single hsince,
    variant?_ofText, ConditionType.ofName?_name, Standing.ofName?_name, millis?_ofNat,
    Option.bind_eq_bind, Option.bind_some, Option.pure_def]

/-- The empty texts of a condition are left out, and no others. -/
theorem hasMember_toTree (c : Condition) :
    (HasMember c.toTree "reason" ↔ c.reason ≠ "")
      ∧ (HasMember c.toTree "message" ↔ c.message ≠ "") := by
  have htree : c.toTree = .ofMembers c.members := rfl
  obtain ⟨-, -, hreason, hmessage, -⟩ := c.filter_members
  simp only [htree, hasMember_ofMembers, hreason, hmessage, unlessEmpty_ne_nil_iff, and_self]

/-- What is written for a condition can be written compactly. -/
theorem written_toTree (c : Condition) : Written c.toTree := by
  refine .ofMembers fun m hm => ?_
  simp only [List.mem_append, List.mem_cons, List.not_mem_nil, or_false] at hm
  obtain (((rfl | rfl) | hm) | hm) | rfl := hm
  · exact .ofText _
  · exact .ofText _
  · exact written_unlessEmpty _ _ m hm
  · exact written_unlessEmpty _ _ m hm
  · exact .ofNat _

end Condition

namespace RelatedObject

/-- The members of an object as it is written. -/
def members (o : RelatedObject) : List (String × Tree) :=
  unlessEmpty "group" o.group ++ [("resource", .ofText o.resource)]
    ++ unlessEmpty "namespace" o.space ++ unlessEmpty "name" o.name

/-- A related object is written as an object with its members. -/
theorem fields?_toTree (o : RelatedObject) : o.toTree.fields? 4 = some (.named o.members) :=
  fields?_ofMembers 4 o.members

/-- Each field of a related object is written once, and the texts other than the resource only if
they are not empty. -/
theorem filter_members (o : RelatedObject) :
    o.members.filter (·.1 == "group") = unlessEmpty "group" o.group
      ∧ o.members.filter (·.1 == "resource") = [("resource", .ofText o.resource)]
      ∧ o.members.filter (·.1 == "namespace") = unlessEmpty "namespace" o.space
      ∧ o.members.filter (·.1 == "name") = unlessEmpty "name" o.name := by
  simp [members, filter_unlessEmpty_self, filter_unlessEmpty_other]

/-- A related object is read back as it was written. -/
theorem ofTree?_toTree (o : RelatedObject) : ofTree? o.toTree = some o := by
  obtain ⟨hgroup, hresource, hspace, hname⟩ := o.filter_members
  simp only [ofTree?, o.fields?_toTree, optional?_of_unlessEmpty hgroup,
    optional?_of_single hresource, optional?_of_unlessEmpty hspace, optional?_of_unlessEmpty hname,
    text?_ofText, Option.bind_eq_bind, Option.bind_some, Option.pure_def]

/-- The empty texts of an object are left out, but for its resource. -/
theorem hasMember_toTree (o : RelatedObject) :
    (HasMember o.toTree "group" ↔ o.group ≠ "") ∧ HasMember o.toTree "resource"
      ∧ (HasMember o.toTree "namespace" ↔ o.space ≠ "")
      ∧ (HasMember o.toTree "name" ↔ o.name ≠ "") := by
  have htree : o.toTree = .ofMembers o.members := rfl
  obtain ⟨hgroup, hresource, hspace, hname⟩ := o.filter_members
  simp only [htree, hasMember_ofMembers, hgroup, hresource, hspace, hname, unlessEmpty_ne_nil_iff,
    ne_eq, reduceCtorEq, not_false_eq_true, and_self]

/-- What is written for a related object can be written compactly. -/
theorem written_toTree (o : RelatedObject) : Written o.toTree := by
  refine .ofMembers fun m hm => ?_
  simp only [List.mem_append, List.mem_cons, List.not_mem_nil, or_false] at hm
  obtain ((hm | rfl) | hm) | hm := hm
  · exact written_unlessEmpty _ _ m hm
  · exact .ofText _
  · exact written_unlessEmpty _ _ m hm
  · exact written_unlessEmpty _ _ m hm

end RelatedObject

/-! ### Documents -/

namespace Document

/-- The members of a document as it is written. -/
def members (d : Document) : List (String × Tree) := [
  ("name", .ofText d.name),
  ("version", .ofText d.version),
  ("reporter", .ofText d.reporter),
  ("phase", .ofText d.phase.name),
  ("conditions", .array (d.conditions.map Condition.toTree)),
  ("related_objects", .array (d.relatedObjects.map RelatedObject.toTree)),
  ("last_update_ms", .ofNat d.updated.toNat)]

/-- A document is read back as it was written. -/
theorem ofTree?_toTree (d : Document) : ofTree? d.toTree = some d := by
  have hconditions := list?_map Condition.ofTree?_toTree d.conditions
  have hobjects := list?_map RelatedObject.ofTree?_toTree d.relatedObjects
  simp [ofTree?, toTree, fields?_ofMembers, Fields.required?, Fields.field?, text?_ofText,
    variant?_ofText, Phase.ofName?_name, hconditions, hobjects, millis?_ofNat]

/-- What is written for a document can be written compactly. -/
theorem written_toTree (d : Document) : Written d.toTree := by
  refine .ofMembers fun m hm => ?_
  simp only [List.mem_cons, List.not_mem_nil, or_false] at hm
  rcases hm with rfl | rfl | rfl | rfl | rfl | rfl | rfl
  · exact .ofText _
  · exact .ofText _
  · exact .ofText _
  · exact .ofText _
  · exact .array (List.forall_mem_map.mpr fun c _ => c.written_toTree)
  · exact .array (List.forall_mem_map.mpr fun o _ => o.written_toTree)
  · exact .ofNat _

/-- The bytes of a document's file parse as what was written. -/
theorem parse_fileBytes (d : Document) : Json.parse d.fileBytes = some d.toTree :=
  (d.written_toTree.spells_pretty 0).parse

/-- The conditions and the objects of a document stand in its file one by one. -/
theorem exists_members (d : Document) : ∃ members, membersOf? d.fileBytes = some members
    ∧ ("conditions", Tree.array (d.conditions.map Condition.toTree)) ∈ members
    ∧ ("related_objects", Tree.array (d.relatedObjects.map RelatedObject.toTree)) ∈ members := by
  refine ⟨d.members, ?_, by simp [members], by simp [members]⟩
  rw [membersOf?, d.parse_fileBytes]
  exact Tree.members?_ofMembers d.members

/-- A document is read back as what was written. -/
theorem parse?_fileBytes (d : Document) : parse? d.fileBytes = some d := by
  rw [parse?, d.parse_fileBytes]
  exact d.ofTree?_toTree

/-- The bytes that are written for the document of a text. -/
def normalize? (text : List UInt8) : Option (List UInt8) := (parse? text).map fileBytes

/-- The bytes of a document's file are their own normal form. -/
theorem normalize?_fileBytes (d : Document) : normalize? d.fileBytes = some d.fileBytes := by
  rw [normalize?, d.parse?_fileBytes]
  rfl

/-- Different documents are written in different bytes. -/
theorem fileBytes_injective {d d' : Document} (h : d.fileBytes = d'.fileBytes) : d = d' := by
  have hparse := d.parse?_fileBytes
  rw [h, d'.parse?_fileBytes] at hparse
  exact (Option.some.inj hparse).symm

/-- Two texts have the same normal form just where they are read as the same document, or neither
is read. -/
theorem normalize?_eq_iff (text text' : List UInt8) :
    normalize? text = normalize? text' ↔ parse? text = parse? text' :=
  (Option.map_injective fun _ _ => fileBytes_injective).eq_iff

/-- Every document is read back from its file. Its conditions and objects stand there without
their empty texts, of which only a resource is written. Whatever text a document was read
from, the bytes that are written for it are read as the same document and written as the
same bytes again, and two texts have them in common exactly if they are read alike. -/
theorem reads_back :
    (∀ d : Document, parse? d.fileBytes = some d)
      ∧ (∀ d : Document, ∃ members, membersOf? d.fileBytes = some members
        ∧ ("conditions", Tree.array (d.conditions.map Condition.toTree)) ∈ members
        ∧ ("related_objects", Tree.array (d.relatedObjects.map RelatedObject.toTree)) ∈ members)
      ∧ (∀ c : Condition, (HasMember c.toTree "reason" ↔ c.reason ≠ "")
        ∧ (HasMember c.toTree "message" ↔ c.message ≠ ""))
      ∧ (∀ o : RelatedObject, (HasMember o.toTree "group" ↔ o.group ≠ "")
        ∧ HasMember o.toTree "resource" ∧ (HasMember o.toTree "namespace" ↔ o.space ≠ "")
        ∧ (HasMember o.toTree "name" ↔ o.name ≠ ""))
      ∧ (∀ text d, parse? text = some d → normalize? text = some d.fileBytes
        ∧ parse? d.fileBytes = some d ∧ normalize? d.fileBytes = some d.fileBytes)
      ∧ ∀ text text', normalize? text = normalize? text' ↔ parse? text = parse? text' := by
  refine ⟨parse?_fileBytes, exists_members, Condition.hasMember_toTree,
    RelatedObject.hasMember_toTree, fun text d h => ?_, normalize?_eq_iff⟩
  exact ⟨by rw [normalize?, h]; rfl, d.parse?_fileBytes, d.normalize?_fileBytes⟩

/-- A condition and an object with their empty texts written out. -/
def spelledOut : List (String × Tree) := [
  ("last_update_ms", .ofNat 7),
  ("name", .ofText "web"),
  ("version", .ofText "1.0"),
  ("reporter", .ofText "pod-a"),
  ("phase", .ofText "running"),
  ("related_objects", .array [.ofMembers [
    ("name", .ofText "web"), ("resource", .ofText ""), ("namespace", .ofText "")]]),
  ("conditions", .array [.ofMembers [
    ("status", .ofText "False"), ("type", .ofText "Degraded"), ("reason", .ofText ""),
    ("last_transition_ms", .ofNat 5)]])]

/-- A document with its empty texts written out can be written compactly. -/
theorem written_spelledOut : ∀ m ∈ spelledOut, Written m.2 := by
  simp only [spelledOut, List.forall_mem_cons]
  refine ⟨.ofNat _, .ofText _, .ofText _, .ofText _, .ofText _, .array ?_, .array ?_, nofun⟩
  · refine List.forall_mem_singleton.mpr (.ofMembers ?_)
    simp [Written.ofText]
  · refine List.forall_mem_singleton.mpr (.ofMembers ?_)
    simp [Written.ofText, Written.ofNat]

/-- Texts that were written out are left out of the normal form. -/
theorem reads_back_spelledOut :
    let text := compact (.ofMembers spelledOut)
    let d : Document := ⟨"web", "1.0", "pod-a", .running, [⟨.degraded, .false, "", "", 5⟩],
      [⟨"", "", "", "web"⟩], 7⟩
    parse? text = some d ∧ normalize? text = some d.fileBytes
      ∧ normalize? d.fileBytes = some d.fileBytes := by
  intro text d
  have hparse : parse? text = some d := by
    rw [parse?, (Written.ofMembers written_spelledOut).spells_compact.parse]
    have hfive : millis? (.ofNat 5) = some 5 := millis?_ofNat 5
    have hseven : millis? (.ofNat 7) = some 7 := millis?_ofNat 7
    -- the empty texts are written out here, and read as if they were not
    have hobject : RelatedObject.ofTree? (.ofMembers [("name", .ofText "web"),
        ("resource", .ofText ""), ("namespace", .ofText "")]) = some ⟨"", "", "", "web"⟩ := by
      simp [RelatedObject.ofTree?, fields?_ofMembers, Fields.optional?, Fields.field?, text?_ofText]
    have hcondition : Condition.ofTree? (.ofMembers [("status", .ofText "False"),
        ("type", .ofText "Degraded"), ("reason", .ofText ""), ("last_transition_ms", .ofNat 5)])
        = some ⟨.degraded, .false, "", "", 5⟩ := by
      simp [Condition.ofTree?, fields?_ofMembers, Fields.required?, Fields.optional?,
        Fields.field?, text?_ofText, variant?_ofText, ConditionType.ofName?, Standing.ofName?,
        hfive]
    simp [spelledOut, ofTree?, fields?_ofMembers, Fields.required?, Fields.field?, text?_ofText,
      variant?_ofText, Phase.ofName?, Tree.list?, hobject, hcondition, hseven, d]
  obtain ⟨hnormal, -, hagain⟩ := reads_back.2.2.2.2.1 text d hparse
  exact ⟨hparse, hnormal, hagain⟩

end Document

end Tenure.Status
