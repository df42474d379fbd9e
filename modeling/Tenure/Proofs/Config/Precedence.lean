import Tenure.Config.Document
import Tenure.Config.Flags
import Tenure.Proofs.Toml.Decode

/-!
# `Tenure.Proofs.Config.Precedence`: which value a setting takes

A setting can be given by a flag, written in a document, or left to its standard value.
`Layered` tells which of them counts. A `Setting` knows where it stands in a configuration and
in a document, what a value that is written there means, and which flags give it.

* `of_apply`: flags replace exactly the settings that they give.
* `isWritten_of_ofMembers?`: a document replaces exactly the settings that it has.
* `ext_settings`: nothing else is in a configuration.
* `assembled_in_layers`: every setting is as a flag gives it, else as the document has it, else
  standard. Only one configuration is like that, and the same flags do not change it any more.
-/

set_option autoImplicit false

namespace Tenure.Config

open Toml

/-- The value that counts, of what a flag gives and what is written. -/
inductive Layered {α : Type} (means : Value → α → Prop) (standard : α) :
    Option α → Option Value → α → Prop
  /-- A flag gives the value, whatever is written. -/
  | given {written : Option Value} (a : α) : Layered means standard (some a) written a
  /-- No flag gives the value, but it is written. -/
  | written {v : Value} {a : α} (hmeans : means v a) : Layered means standard none (some v) a
  /-- The value is left as it is when nothing is set. -/
  | left : Layered means standard none none standard

/-! ### The settings -/

/-- A setting, by what it holds. -/
inductive Setting : Type → Type
  | leaderNamespace : Setting String
  | lockName : Setting String
  | leaseSecs : Setting Nat
  | renewDeadlineSecs : Setting Nat
  | retryPeriodSecs : Setting Nat
  | releaseOnCancel : Setting Bool
  | rejoinAfterLoss : Setting Bool
  | storeKind : Setting StoreKind
  | lockDirectory : Setting (Option String)
  | reportedName : Setting String
  | statusDirectory : Setting String
  | reportIntervalSecs : Setting Nat
  | releaseVersion : Setting String
  | relatedObjects : Setting (List Status.RelatedObject)
  | defaultsDirectory : Setting (Option String)
  | resyncSecs : Setting Nat
  | verbosity : Setting String
  | logFormat : Setting LogFormat
  | healthAddress : Setting String
  | metricsEnabled : Setting Bool
  | metricsAddress : Setting String
  /-- The certificate and its key are one setting. -/
  | tls : Setting (Option TlsPair)

/-- Where a setting is written: the table of its group, and its position and name there. -/
structure Place where
  table : String
  index : Nat
  field : String
deriving Repr, DecidableEq

/-- What is written of a group. A table that is not there is like an empty one. -/
def groupIn (members : List (String × Value)) (table : String) : Value :=
  (Json.lookup table members).getD (.table [])

/-- What a document has at a place. -/
def Place.find? (p : Place) (members : List (String × Value)) : Option Value :=
  (groupIn members p.table).field? p.index p.field

/-- A value means that there is something. -/
def MeansSome {α : Type} (means : Value → α → Prop) (v : Value) (a : Option α) : Prop :=
  ∃ b, means v b ∧ a = some b

/-- A value means a related object. What it does not have is empty. -/
structure MeansObject (v : Value) (object : Status.RelatedObject) : Prop where
  isStructure : v.fields?.isSome
  group : Layered Value.IsText "" none (v.field? 0 "group") object.group
  resource : Layered Value.IsText "" none (v.field? 1 "resource") object.resource
  space : Layered Value.IsText "" none (v.field? 2 "namespace") object.space
  name : Layered Value.IsText "" none (v.field? 3 "name") object.name

/-- A value means the files of a certificate and its key. A file that it does not have is
empty. -/
structure MeansPair (v : Value) (pair : TlsPair) : Prop where
  isStructure : v.fields?.isSome
  certificate : Layered Value.IsText "" none (v.field? 0 "cert_path") pair.certificate
  key : Layered Value.IsText "" none (v.field? 1 "key_path") pair.key

namespace Setting

/-- A setting in a configuration. -/
def of : {α : Type} → Setting α → Config → α
  | _, leaderNamespace, c => c.election.lock.space
  | _, lockName, c => c.election.lock.name
  | _, leaseSecs, c => c.election.leaseSecs
  | _, renewDeadlineSecs, c => c.election.renewDeadlineSecs
  | _, retryPeriodSecs, c => c.election.retryPeriodSecs
  | _, releaseOnCancel, c => c.election.releaseOnCancel
  | _, rejoinAfterLoss, c => c.election.rejoinAfterLoss
  | _, storeKind, c => c.coordination.kind
  | _, lockDirectory, c => c.coordination.lockDirectory
  | _, reportedName, c => c.reporting.name
  | _, statusDirectory, c => c.reporting.directory
  | _, reportIntervalSecs, c => c.reporting.intervalSecs
  | _, releaseVersion, c => c.reporting.releaseVersion
  | _, relatedObjects, c => c.reporting.relatedObjects
  | _, defaultsDirectory, c => c.defaultsDirectory
  | _, resyncSecs, c => c.resyncSecs
  | _, verbosity, c => c.observation.verbosity
  | _, logFormat, c => c.observation.logFormat
  | _, healthAddress, c => c.observation.healthAddress
  | _, metricsEnabled, c => c.observation.metricsEnabled
  | _, metricsAddress, c => c.observation.metricsAddress
  | _, tls, c => c.observation.tls

/-- Where a setting is written. -/
def place : {α : Type} → Setting α → Place
  | _, leaderNamespace => ⟨"leader_election", 0, "namespace"⟩
  | _, lockName => ⟨"leader_election", 1, "lock_name"⟩
  | _, leaseSecs => ⟨"leader_election", 2, "lease_duration_secs"⟩
  | _, renewDeadlineSecs => ⟨"leader_election", 3, "renew_deadline_secs"⟩
  | _, retryPeriodSecs => ⟨"leader_election", 4, "retry_period_secs"⟩
  | _, releaseOnCancel => ⟨"leader_election", 5, "release_on_cancel"⟩
  | _, rejoinAfterLoss => ⟨"leader_election", 6, "rejoin_after_loss"⟩
  | _, storeKind => ⟨"store", 0, "kind"⟩
  | _, lockDirectory => ⟨"store", 1, "lock_dir"⟩
  | _, reportedName => ⟨"status", 0, "cluster_operator_name"⟩
  | _, statusDirectory => ⟨"status", 1, "dir"⟩
  | _, reportIntervalSecs => ⟨"status", 2, "report_interval_secs"⟩
  | _, releaseVersion => ⟨"status", 3, "release_version"⟩
  | _, relatedObjects => ⟨"status", 4, "related_objects"⟩
  | _, defaultsDirectory => ⟨"defaults", 0, "dir"⟩
  | _, resyncSecs => ⟨"controller", 0, "resync_secs"⟩
  | _, verbosity => ⟨"observability", 0, "log_level"⟩
  | _, logFormat => ⟨"observability", 1, "log_format"⟩
  | _, healthAddress => ⟨"observability", 2, "health_address"⟩
  | _, metricsEnabled => ⟨"observability", 3, "metrics_enabled"⟩
  | _, metricsAddress => ⟨"observability", 4, "metrics_address"⟩
  | _, tls => ⟨"observability", 5, "tls"⟩

/-- What a value that is written for a setting means. -/
def Means : {α : Type} → Setting α → Value → α → Prop
  | _, leaderNamespace | _, lockName | _, reportedName | _, statusDirectory
  | _, releaseVersion | _, verbosity | _, healthAddress | _, metricsAddress => Value.IsText
  | _, leaseSecs | _, renewDeadlineSecs | _, retryPeriodSecs | _, reportIntervalSecs
  | _, resyncSecs => Value.IsNat
  | _, releaseOnCancel | _, rejoinAfterLoss | _, metricsEnabled => Value.IsBool
  | _, lockDirectory | _, defaultsDirectory => MeansSome Value.IsText
  | _, storeKind => fun v kind => v.Names kind.name
  | _, logFormat => fun v format => v.Names format.name
  | _, relatedObjects => Value.Lists MeansObject
  | _, tls => MeansSome MeansPair

/-- What the flags give. As soon as one of the two files is given, both are, and the other one
is empty. The settings that are not named here have no flag. -/
def given (flags : Flags) : {α : Type} → Setting α → Option α
  | _, leaderNamespace => flags.leaderNamespace
  | _, lockDirectory => flags.lockDirectory.map some
  | _, reportedName => flags.name
  | _, statusDirectory => flags.statusDirectory
  | _, releaseVersion => flags.releaseVersion
  | _, defaultsDirectory => flags.defaultsDirectory.map some
  | _, verbosity => flags.verbosity
  | _, healthAddress => flags.healthAddress
  | _, metricsAddress => flags.metricsAddress
  | _, tls =>
    match flags.tlsCertificate, flags.tlsKey with
    | none, none => none
    | some certificate, none => some (some ⟨certificate, ""⟩)
    | none, some key => some (some ⟨"", key⟩)
    | some certificate, some key => some (some ⟨certificate, key⟩)
  | _, _ => none

/-- A setting is as a document has it, or standard. -/
def IsWritten {α : Type} (s : Setting α) (members : List (String × Value)) (c : Config) : Prop :=
  Layered s.Means (s.of standard) none (s.place.find? members) (s.of c)

end Setting

section Layers
variable {α : Type} {means : Value → α → Prop} {read : Value → Option α} {standard absent a b : α}
  {given : Option α} {written : Option Value}

/-- What a flag gives comes before everything else. -/
theorem Layered.overlay (h : Layered means standard none written a) (given : Option α) :
    Layered means standard given written (given.getD a) := by
  cases given with
  | none => exact h
  | some b => exact .given b

/-- One value counts. -/
theorem Layered.unique (hread : ∀ v a, read v = some a ↔ means v a)
    (ha : Layered means standard given written a) (hb : Layered means standard given written b) :
    a = b := by
  cases ha with
  | given => cases hb; rfl
  | left => cases hb; rfl
  | @written v _ hmeans =>
    cases hb with
    | written hmeans' =>
      -- a reader has one answer
      have hanswers := ((hread v a).mpr hmeans).symm.trans ((hread v b).mpr hmeans')
      exact Option.some.inj hanswers

/-- A field is decoded when it means something or is not there. -/
theorem decode_eq_some_iff (hread : ∀ v a, read v = some a ↔ means v a) {v : Value} {f : Fields}
    (hfields : v.fields? = some f) {index : Nat} {name : String} :
    f.decode index name read absent = some a
      ↔ Layered means absent none (v.field? index name) a := by
  have hfield : v.field? index name = f.find? index name := by rw [Value.field?, hfields]; rfl
  rw [hfield, Fields.decode]
  -- a field that is missing has its default, and one that is there has what it means
  cases f.find? index name with
  | none =>
    constructor
    · intro h
      cases h
      exact .left
    · intro h
      cases h
      rfl
  | some found =>
    constructor
    · intro h
      exact .written ((hread found a).mp h)
    · intro h
      cases h with
      | written hmeans => exact (hread found a).mpr hmeans

section
variable {v : Value} {f : Fields} {index : Nat} {name : String}

/-- A text in a group is that of its member, or else the default. -/
theorem decode_text_iff (hfields : v.fields? = some f) {absent text : String} :
    f.decode index name Value.text? absent = some text
      ↔ Layered Value.IsText absent none (v.field? index name) text :=
  decode_eq_some_iff Value.text?_eq_some_iff hfields

/-- A number in a group is that of its member, or else the default. -/
theorem decode_nat_iff (hfields : v.fields? = some f) {absent n : Nat} :
    f.decode index name Value.nat? absent = some n
      ↔ Layered Value.IsNat absent none (v.field? index name) n :=
  decode_eq_some_iff Value.nat?_eq_some_iff hfields

/-- A truth value in a group is that of its member, or else the default. -/
theorem decode_bool_iff (hfields : v.fields? = some f) {absent b : Bool} :
    f.decode index name Value.bool? absent = some b
      ↔ Layered Value.IsBool absent none (v.field? index name) b :=
  decode_eq_some_iff Value.bool?_eq_some_iff hfields

end

/-- A group that is not there is decoded as an empty one. -/
theorem decode_group {members : List (String × Value)} {index : Nat} {table : String}
    (hempty : read (.table []) = some absent) :
    (Fields.named members).decode index table read absent = read (groupIn members table) := by
  have hfind : (Fields.named members).find? index table = Json.lookup table members := rfl
  rw [Fields.decode, hfind, groupIn]
  cases Json.lookup table members with
  | none => exact hempty.symm
  | some value => rfl

end Layers

/-! ### What is written in a document -/

/-- A kind of store is read exactly from a value that names it. -/
theorem storeKind_eq_some_iff (v : Value) (kind : StoreKind) :
    v.variant?.bind StoreKind.ofName? = some kind ↔ v.Names kind.name := by
  refine Value.variant?_bind_eq_some_iff (fun name kind => ?_) v kind
  unfold StoreKind.ofName? StoreKind.name
  cases kind <;> split <;> simp_all

/-- A format of the log is read exactly from a value that names it. -/
theorem logFormat_eq_some_iff (v : Value) (format : LogFormat) :
    v.variant?.bind LogFormat.ofName? = some format ↔ v.Names format.name := by
  refine Value.variant?_bind_eq_some_iff (fun name format => ?_) v format
  unfold LogFormat.ofName? LogFormat.name
  cases format <;> split <;> simp_all

/-- A setting that may be absent is read exactly from the values that mean what is read, and is
present then. -/
theorem present?_eq_some_iff {α : Type} {means : Value → α → Prop} {read : Value → Option α}
    (hread : ∀ v a, read v = some a ↔ means v a) (v : Value) (a : Option α) :
    present? read v = some a ↔ MeansSome means v a := by
  simp only [present?, MeansSome, Option.map_eq_some_iff, hread, eq_comm]

/-- A related object is read exactly from the tables that mean it. -/
theorem relatedObjectOfValue?_eq_some_iff (v : Value) (object : Status.RelatedObject) :
    relatedObjectOfValue? v = some object ↔ MeansObject v object := by
  simp only [relatedObjectOfValue?, Option.bind_eq_bind, Option.bind_eq_some_iff]
  constructor
  · rintro ⟨f, hfields, group, hgroup, resource, hresource, space, hspace, name, hname, hobject⟩
    cases hobject
    exact {
      isStructure := by rw [hfields]; rfl
      group := (decode_text_iff hfields).mp hgroup
      resource := (decode_text_iff hfields).mp hresource
      space := (decode_text_iff hfields).mp hspace
      name := (decode_text_iff hfields).mp hname }
  · intro h
    obtain ⟨f, hfields⟩ := Option.isSome_iff_exists.mp h.isStructure
    exact ⟨f, hfields, _, (decode_text_iff hfields).mpr h.group,
      _, (decode_text_iff hfields).mpr h.resource,
      _, (decode_text_iff hfields).mpr h.space,
      _, (decode_text_iff hfields).mpr h.name, rfl⟩

/-- A pair of a certificate and a key is read exactly from the tables that mean it. -/
theorem TlsPair.ofValue?_eq_some_iff (v : Value) (pair : TlsPair) :
    TlsPair.ofValue? v = some pair ↔ MeansPair v pair := by
  simp only [TlsPair.ofValue?, Option.bind_eq_bind, Option.bind_eq_some_iff]
  constructor
  · rintro ⟨f, hfields, certificate, hcertificate, key, hkey, hpair⟩
    cases hpair
    exact {
      isStructure := by rw [hfields]; rfl
      certificate := (decode_text_iff hfields).mp hcertificate
      key := (decode_text_iff hfields).mp hkey }
  · intro h
    obtain ⟨f, hfields⟩ := Option.isSome_iff_exists.mp h.isStructure
    exact ⟨f, hfields, _, (decode_text_iff hfields).mpr h.certificate,
      _, (decode_text_iff hfields).mpr h.key, rfl⟩

open Setting

variable {members : List (String × Value)} {c : Config}

/-- Every setting of an election that was read from its group is the one that the group gives, or
its default. -/
theorem election_isWritten
    (h : Election.ofValue? (groupIn members "leader_election") = some c.election) :
    leaderNamespace.IsWritten members c ∧ lockName.IsWritten members c
      ∧ leaseSecs.IsWritten members c ∧ renewDeadlineSecs.IsWritten members c
      ∧ retryPeriodSecs.IsWritten members c ∧ releaseOnCancel.IsWritten members c
      ∧ rejoinAfterLoss.IsWritten members c := by
  obtain ⟨election, _, _, _, _, _⟩ := c
  simp only [Election.ofValue?, Option.bind_eq_bind, Option.bind_eq_some_iff] at h
  obtain ⟨f, hfields, space, hspace, name, hname, lease, hlease, renew, hrenew, retry, hretry,
    release, hrelease, rejoin, hrejoin, helection⟩ := h
  cases helection
  exact ⟨(decode_text_iff hfields).mp hspace,
    (decode_text_iff hfields).mp hname,
    (decode_nat_iff hfields).mp hlease,
    (decode_nat_iff hfields).mp hrenew,
    (decode_nat_iff hfields).mp hretry,
    (decode_bool_iff hfields).mp hrelease,
    (decode_bool_iff hfields).mp hrejoin⟩

/-- So is every setting of a store. -/
theorem coordination_isWritten
    (h : Coordination.ofValue? (groupIn members "store") = some c.coordination) :
    storeKind.IsWritten members c ∧ lockDirectory.IsWritten members c := by
  obtain ⟨_, coordination, _, _, _, _⟩ := c
  simp only [Coordination.ofValue?, Option.bind_eq_bind, Option.bind_eq_some_iff] at h
  obtain ⟨f, hfields, kind, hkind, directory, hdirectory, hcoordination⟩ := h
  cases hcoordination
  exact ⟨(decode_eq_some_iff storeKind_eq_some_iff hfields).mp hkind,
    (decode_eq_some_iff (present?_eq_some_iff Value.text?_eq_some_iff) hfields).mp hdirectory⟩

/-- So is every setting of what is reported. -/
theorem reporting_isWritten
    (h : Reporting.ofValue? (groupIn members "status") = some c.reporting) :
    reportedName.IsWritten members c ∧ statusDirectory.IsWritten members c
      ∧ reportIntervalSecs.IsWritten members c ∧ releaseVersion.IsWritten members c
      ∧ relatedObjects.IsWritten members c := by
  obtain ⟨_, _, reporting, _, _, _⟩ := c
  simp only [Reporting.ofValue?, Option.bind_eq_bind, Option.bind_eq_some_iff] at h
  obtain ⟨f, hfields, name, hname, directory, hdirectory, interval, hinterval, version, hversion,
    objects, hobjects, hreporting⟩ := h
  cases hreporting
  have hread := Value.list?_eq_some_iff relatedObjectOfValue?_eq_some_iff
  exact ⟨(decode_text_iff hfields).mp hname,
    (decode_text_iff hfields).mp hdirectory,
    (decode_nat_iff hfields).mp hinterval,
    (decode_text_iff hfields).mp hversion,
    (decode_eq_some_iff hread hfields).mp hobjects⟩

/-- So is the directory of the defaults. -/
theorem defaultsDirectory_isWritten
    (h : defaultsDirectoryOfValue? (groupIn members "defaults") = some c.defaultsDirectory) :
    Setting.defaultsDirectory.IsWritten members c := by
  simp only [defaultsDirectoryOfValue?, Option.bind_eq_bind, Option.bind_eq_some_iff] at h
  obtain ⟨f, hfields, hdirectory⟩ := h
  exact (decode_eq_some_iff (present?_eq_some_iff Value.text?_eq_some_iff) hfields).mp hdirectory

/-- So is the period after which controllers look again. -/
theorem resyncSecs_isWritten
    (h : resyncOfValue? (groupIn members "controller") = some c.resyncSecs) :
    Setting.resyncSecs.IsWritten members c := by
  simp only [resyncOfValue?, Option.bind_eq_bind, Option.bind_eq_some_iff] at h
  obtain ⟨f, hfields, hresync⟩ := h
  exact (decode_nat_iff hfields).mp hresync

/-- So is every setting of how a process is observed, with the pair of paths as one setting. -/
theorem observation_isWritten
    (h : Observation.ofValue? (groupIn members "observability") = some c.observation) :
    verbosity.IsWritten members c ∧ logFormat.IsWritten members c
      ∧ healthAddress.IsWritten members c ∧ metricsEnabled.IsWritten members c
      ∧ metricsAddress.IsWritten members c ∧ tls.IsWritten members c := by
  obtain ⟨_, _, _, _, _, observation⟩ := c
  simp only [Observation.ofValue?, Option.bind_eq_bind, Option.bind_eq_some_iff] at h
  obtain ⟨f, hfields, verbosity, hverbosity, format, hformat, health, hhealth, enabled, henabled,
    metrics, hmetrics, tls, htls, hobservation⟩ := h
  cases hobservation
  exact ⟨(decode_text_iff hfields).mp hverbosity,
    (decode_eq_some_iff logFormat_eq_some_iff hfields).mp hformat,
    (decode_text_iff hfields).mp hhealth,
    (decode_bool_iff hfields).mp henabled,
    (decode_text_iff hfields).mp hmetrics,
    (decode_eq_some_iff (present?_eq_some_iff TlsPair.ofValue?_eq_some_iff) hfields).mp htls⟩

/-- A document has a configuration group by group. -/
theorem groups_of_ofMembers? (h : ofMembers? members = some c) :
    Election.ofValue? (groupIn members "leader_election") = some c.election
      ∧ Coordination.ofValue? (groupIn members "store") = some c.coordination
      ∧ Reporting.ofValue? (groupIn members "status") = some c.reporting
      ∧ defaultsDirectoryOfValue? (groupIn members "defaults") = some c.defaultsDirectory
      ∧ resyncOfValue? (groupIn members "controller") = some c.resyncSecs
      ∧ Observation.ofValue? (groupIn members "observability") = some c.observation := by
  -- a group that is not there stands for what holds when nothing is set, like an empty table
  have helection : Election.ofValue? (.table []) = some standard.election := rfl
  have hcoordination : Coordination.ofValue? (.table []) = some standard.coordination := rfl
  have hreporting : Reporting.ofValue? (.table []) = some standard.reporting := rfl
  have hdefaults : defaultsDirectoryOfValue? (.table []) = some standard.defaultsDirectory := rfl
  have hresync : resyncOfValue? (.table []) = some standard.resyncSecs := rfl
  have hobservation : Observation.ofValue? (.table []) = some standard.observation := rfl
  simp only [ofMembers?, Option.bind_eq_bind, Option.bind_eq_some_iff, decode_group helection,
    decode_group hcoordination, decode_group hreporting, decode_group hdefaults,
    decode_group hresync, decode_group hobservation] at h
  obtain ⟨_, h0, _, h1, _, h2, _, h3, _, h4, _, h5, hc⟩ := h
  cases hc
  exact ⟨h0, h1, h2, h3, h4, h5⟩

/-- Every setting is as a document has it, or standard. -/
theorem isWritten_of_ofMembers? (h : ofMembers? members = some c) {α : Type} (s : Setting α) :
    s.IsWritten members c := by
  obtain ⟨helection, hcoordination, hreporting, hdefaults, hresync, hobservation⟩ :=
    groups_of_ofMembers? h
  obtain ⟨hspace, hname, hlease, hrenew, hretry, hrelease, hrejoin⟩ := election_isWritten helection
  obtain ⟨hkind, hlock⟩ := coordination_isWritten hcoordination
  obtain ⟨hreported, hstatus, hinterval, hversion, hobjects⟩ := reporting_isWritten hreporting
  obtain ⟨hverbosity, hformat, hhealth, henabled, hmetrics, htls⟩ :=
    observation_isWritten hobservation
  -- each group was read on its own, and has told of its settings one by one
  cases s with
  | leaderNamespace => exact hspace
  | lockName => exact hname
  | leaseSecs => exact hlease
  | renewDeadlineSecs => exact hrenew
  | retryPeriodSecs => exact hretry
  | releaseOnCancel => exact hrelease
  | rejoinAfterLoss => exact hrejoin
  | storeKind => exact hkind
  | lockDirectory => exact hlock
  | reportedName => exact hreported
  | statusDirectory => exact hstatus
  | reportIntervalSecs => exact hinterval
  | releaseVersion => exact hversion
  | relatedObjects => exact hobjects
  | defaultsDirectory => exact defaultsDirectory_isWritten hdefaults
  | resyncSecs => exact resyncSecs_isWritten hresync
  | verbosity => exact hverbosity
  | logFormat => exact hformat
  | healthAddress => exact hhealth
  | metricsEnabled => exact henabled
  | metricsAddress => exact hmetrics
  | tls => exact htls

/-- What is written for a setting has one meaning. -/
theorem Setting.exists_read {α : Type} (s : Setting α) :
    ∃ read : Value → Option α, ∀ v a, read v = some a ↔ s.Means v a := by
  cases s with
  | leaderNamespace | lockName | reportedName | statusDirectory | releaseVersion | verbosity
  | healthAddress | metricsAddress => exact ⟨_, Value.text?_eq_some_iff⟩
  | leaseSecs | renewDeadlineSecs | retryPeriodSecs | reportIntervalSecs | resyncSecs =>
    exact ⟨_, Value.nat?_eq_some_iff⟩
  | releaseOnCancel | rejoinAfterLoss | metricsEnabled => exact ⟨_, Value.bool?_eq_some_iff⟩
  | lockDirectory | defaultsDirectory => exact ⟨_, present?_eq_some_iff Value.text?_eq_some_iff⟩
  | storeKind => exact ⟨_, storeKind_eq_some_iff⟩
  | logFormat => exact ⟨_, logFormat_eq_some_iff⟩
  | relatedObjects => exact ⟨_, Value.list?_eq_some_iff relatedObjectOfValue?_eq_some_iff⟩
  | tls => exact ⟨_, present?_eq_some_iff TlsPair.ofValue?_eq_some_iff⟩

/-! ### What the flags replace -/

/-- The two files are given together, or neither is. -/
theorem given_tls (flags : Flags) : tls.given flags = flags.tls.map some := by
  unfold Setting.given Flags.tls
  cases flags.tlsCertificate with
  | none => cases flags.tlsKey <;> rfl
  | some certificate => cases flags.tlsKey <;> rfl

/-- A setting that may be absent is replaced when it is given. -/
theorem or_eq_getD {α : Type} (given kept : Option α) :
    given.or kept = (given.map some).getD kept := by
  cases given <;> rfl

/-- Flags replace the settings that they give, and no other. -/
theorem of_apply (flags : Flags) (c : Config) {α : Type} (s : Setting α) :
    s.of (flags.apply c) = (s.given flags).getD (s.of c) := by
  cases s with
  | leaderNamespace | reportedName | statusDirectory | releaseVersion | verbosity | healthAddress
  | metricsAddress => rfl
  | lockDirectory | defaultsDirectory => exact or_eq_getD _ _
  | tls =>
    rw [given_tls]
    exact or_eq_getD _ _
  -- the others have no flag
  | lockName | leaseSecs | renewDeadlineSecs | retryPeriodSecs | releaseOnCancel | rejoinAfterLoss
  | storeKind | reportIntervalSecs | relatedObjects | resyncSecs | logFormat | metricsEnabled => rfl

/-- Nothing but the settings is in a configuration. -/
theorem ext_settings {c c' : Config} (h : ∀ (α : Type) (s : Setting α), s.of c = s.of c') :
    c = c' := by
  obtain ⟨⟨⟨_, _⟩, _, _, _, _, _⟩, ⟨_, _⟩, ⟨_, _, _, _, _⟩, _, _, ⟨_, _, _, _, _, _⟩⟩ := c
  obtain ⟨⟨⟨_, _⟩, _, _, _, _, _⟩, ⟨_, _⟩, ⟨_, _, _, _, _⟩, _, _, ⟨_, _, _, _, _, _⟩⟩ := c'
  -- every field of a configuration is a setting, so nothing is left that could differ
  cases h _ leaderNamespace
  cases h _ lockName
  cases h _ leaseSecs
  cases h _ renewDeadlineSecs
  cases h _ retryPeriodSecs
  cases h _ releaseOnCancel
  cases h _ rejoinAfterLoss
  cases h _ storeKind
  cases h _ lockDirectory
  cases h _ reportedName
  cases h _ statusDirectory
  cases h _ reportIntervalSecs
  cases h _ releaseVersion
  cases h _ relatedObjects
  cases h _ Setting.defaultsDirectory
  cases h _ Setting.resyncSecs
  cases h _ verbosity
  cases h _ logFormat
  cases h _ healthAddress
  cases h _ metricsEnabled
  cases h _ metricsAddress
  cases h _ tls
  rfl

/-- The same flags, applied a second time, change nothing. -/
theorem apply_apply (flags : Flags) (c : Config) :
    flags.apply (flags.apply c) = flags.apply c := by
  refine ext_settings fun α s => ?_
  rw [of_apply, of_apply]
  -- what is given stays given, and what is not was kept before
  cases s.given flags <;> rfl

/-- Of a document that is a configuration and of flags comes the one configuration in which each
setting is as a flag gives it, else as the document has it, else standard. The certificate and
its key are one setting. Whatever configuration flags are applied to, they keep the settings
that they do not give, and the same flags do not change it a second time. -/
theorem assembled_in_layers (flags : Flags) {text : String} {c : Config}
    (h : parse? text = some c) :
    (∃ members, Toml.parse text = some members ∧ ∀ assembled : Config,
        assembled = flags.apply c ↔ ∀ (α : Type) (s : Setting α),
          Layered s.Means (s.of standard) (s.given flags) (s.place.find? members)
            (s.of assembled))
      ∧ ∀ base : Config,
        (∀ (α : Type) (s : Setting α), s.given flags = none →
          s.of (flags.apply base) = s.of base)
        ∧ flags.apply (flags.apply base) = flags.apply base := by
  constructor
  · obtain ⟨members, hmembers, hc⟩ := Option.bind_eq_some_iff.mp h
    have hlayered (α : Type) (s : Setting α) :
        Layered s.Means (s.of standard) (s.given flags) (s.place.find? members)
          (s.of (flags.apply c)) := by
      -- a flag overrides what the file has settled with its default
      rw [of_apply]
      exact (isWritten_of_ofMembers? hc s).overlay (s.given flags)
    refine ⟨members, hmembers, fun assembled => ?_⟩
    constructor
    · rintro rfl
      exact hlayered
    · -- what counts for each setting leaves no choice
      intro hassembled
      refine ext_settings fun α s => ?_
      obtain ⟨read, hread⟩ := s.exists_read
      exact (hassembled α s).unique hread (hlayered α s)
  · intro base
    refine ⟨fun α s hnone => ?_, apply_apply flags base⟩
    rw [of_apply, hnone, Option.getD_none]

/-- A document with some of the settings, one of the two files, and things that nobody knows. -/
def shopDocument : String :=
  "colour = \"green\"\n[leader_election]\nnamespace = \"shops\"\nlease_duration_secs = 120\n"
    ++ "[store]\nkind = \"memory\"\nshelf = 3\n[observability.tls]\ncert_path = \"file.crt\"\n"

/-- What the document has, and the standard values of all else. -/
def shop : Config := { standard with
  election := { Election.standard with
    lock := ⟨"shops", "operator-manager-lock"⟩
    leaseSecs := 120 }
  coordination := { Coordination.standard with kind := .memory }
  observation := { Observation.standard with tls := some ⟨"file.crt", ""⟩ } }

/-- Flags that give a name and the other one of the two files. -/
def shopFlags : Flags := { (default : Flags) with
  name := some "till"
  tlsKey := some "flag.key" }

/-- The name comes from its flag, and so does the pair, whose certificate is empty then. The
namespace is the one of the document, and the name of the lock is standard. -/
theorem assembled_in_layers_shop :
    parse? shopDocument = some shop
      ∧ (∃ members, Toml.parse shopDocument = some members
        ∧ Layered reportedName.Means "" (some "till") (reportedName.place.find? members) "till"
        ∧ Layered tls.Means none (some (some ⟨"", "flag.key"⟩)) (tls.place.find? members)
          (some ⟨"", "flag.key"⟩)
        ∧ Layered Value.IsText "default" none (leaderNamespace.place.find? members) "shops"
        ∧ Layered Value.IsText "operator-manager-lock" none (lockName.place.find? members)
          "operator-manager-lock")
      ∧ (shopFlags.apply shop).election.leaseSecs = 120
      ∧ shopFlags.apply (shopFlags.apply shop) = shopFlags.apply shop := by
  have hshop : parse? shopDocument = some shop := by decide +kernel
  obtain ⟨⟨members, hmembers, hlayers⟩, hflags⟩ := assembled_in_layers shopFlags hshop
  have hlayered := (hlayers _).mp rfl
  obtain ⟨hkept, hagain⟩ := hflags shop
  exact ⟨hshop, ⟨members, hmembers, hlayered _ reportedName, hlayered _ tls,
    hlayered _ leaderNamespace, hlayered _ lockName⟩, hkept _ leaseSecs rfl, hagain⟩

end Tenure.Config
