import Mathlib.Data.Finset.Card
import Mathlib.Data.List.Nodup
import Tenure.Proofs.Leader.Custody

/-!
# `Tenure.Proofs.Leader.Gauge`: the gauges show the flags

Each identity has a gauge. An elector sets it when its flag goes up and when it goes
down, and at no other time (`Elector.GaugeFollows`). So
what is measured in a run of candidates with different identities shows for each of
them whether it says that it leads.

* `Arena.Run`: a run of candidates through points at which something holds, and what
  they have measured.
* `Arena.Gauged.leaderSum_le_one`: the gauges sum up to one at most exactly when at most
  one candidate says that it leads.
-/

set_option autoImplicit false

namespace Tenure.Metrics

/-- What the gauges of all identities sum up to. -/
def leaderSum (m : Metrics) : Nat := (m.leaders.map fun (_, now) => if now then 1 else 0).sum

section Set

variable {α : Type} {label other : String} {value seen : α} {entries : List (String × α)}

/-- Setting a label replaces the first entry of that label. -/
theorem set_cons_self :
    set label value ((label, seen) :: entries) = (label, value) :: entries := by
  simp [set]

/-- Setting a label goes past the entries of others. -/
theorem set_cons_other (h : other ≠ label) :
    set label value ((other, seen) :: entries) = (other, seen) :: set label value entries := by
  simp [set, h]

/-- The value that was set is among the entries. -/
theorem mem_set_self : (label, value) ∈ set label value entries := by
  induction entries with
  | nil => simp [set]
  | cons entry rest ih =>
    obtain ⟨first, seen⟩ := entry
    by_cases hfirst : first = label
    · subst hfirst
      simp [set_cons_self]
    · rw [set_cons_other hfirst]
      exact List.mem_cons_of_mem _ ih

/-- Setting a label leaves every other one alone. -/
theorem mem_set_other (h : other ≠ label) :
    (other, seen) ∈ set label value entries ↔ (other, seen) ∈ entries := by
  induction entries with
  | nil => simp [set, h]
  | cons entry rest ih =>
    obtain ⟨first, before⟩ := entry
    by_cases hfirst : first = label
    · subst hfirst
      simp [set_cons_self, h]
    · rw [set_cons_other hfirst, List.mem_cons, List.mem_cons, ih]

/-- Setting a label brings no other label in. -/
theorem mem_labels_set : other ∈ (set label value entries).map Prod.fst ↔
    other = label ∨ other ∈ entries.map Prod.fst := by
  induction entries with
  | nil => simp [set]
  | cons entry rest ih =>
    obtain ⟨first, before⟩ := entry
    by_cases hfirst : first = label
    · subst hfirst
      simp [set_cons_self]
    · rw [set_cons_other hfirst, List.map_cons, List.map_cons, List.mem_cons, List.mem_cons, ih]
      exact or_left_comm

/-- No label comes to be listed twice by setting one. -/
theorem nodup_set (h : (entries.map Prod.fst).Nodup) :
    ((set label value entries).map Prod.fst).Nodup := by
  induction entries with
  | nil => simp [set]
  | cons entry rest ih =>
    obtain ⟨first, before⟩ := entry
    obtain ⟨hnotin, hrest⟩ := List.nodup_cons.mp h
    by_cases hfirst : first = label
    · subst hfirst
      rw [set_cons_self]
      exact List.nodup_cons.mpr ⟨hnotin, hrest⟩
    · rw [set_cons_other hfirst]
      refine List.nodup_cons.mpr ⟨fun hmem => ?_, ih hrest⟩
      exact (mem_labels_set.mp hmem).elim hfirst hnotin

/-- A label has one value. -/
theorem eq_of_mem_of_nodup (h : (entries.map Prod.fst).Nodup) (hvalue : (label, value) ∈ entries)
    (hseen : (label, seen) ∈ entries) : value = seen :=
  (Prod.ext_iff.mp (List.inj_on_of_nodup_map h hvalue hseen rfl)).2

end Set

/-- The gauges sum up to one at most when no two of them show a leader. -/
theorem leaderSum_le_one {m : Metrics} (h : (m.leaders.map Prod.fst).Nodup) :
    m.leaderSum ≤ 1 ↔ ∀ label other, (label, true) ∈ m.leaders → (other, true) ∈ m.leaders →
      label = other := by
  -- the sum counts the gauges that show one, and those are a list without repetition
  have hsum : m.leaderSum = (m.leaders.filter Prod.snd).length := by
    unfold leaderSum
    generalize m.leaders = entries
    induction entries with
    | nil => rfl
    | cons entry rest ih =>
      obtain ⟨label, now⟩ := entry
      cases now <;> simp [ih, Nat.add_comm]
  have hnodup : (m.leaders.filter Prod.snd).Nodup := (List.Nodup.of_map _ h).filter _
  rw [hsum, ← List.toFinset_card_of_nodup hnodup, Finset.card_le_one]
  constructor
  · intro hone label other hlabel hother
    have hsame := hone (label, true) (by simpa using hlabel) (other, true) (by simpa using hother)
    exact congrArg Prod.fst hsame
  · rintro hone ⟨label, now⟩ hlabel ⟨other, now'⟩ hother
    obtain ⟨hlabel, rfl⟩ : (label, now) ∈ m.leaders ∧ now = true := by simpa using hlabel
    obtain ⟨hother, rfl⟩ : (other, now') ∈ m.leaders ∧ now' = true := by simpa using hother
    rw [hone label other hlabel hother]

end Tenure.Metrics

namespace Tenure.Leader

open Lease Store

/-- Takes in what an elector says. -/
def Note.measure (m : Metrics) : Note → Metrics
  | .measured measurement => m.record measurement
  | _ => m

namespace Elector

variable {e e' : Elector} {now : Moment} {delay : Duration} {reply : Reply} {notes : List Note}

/-- The gauge of an elector is set to the flag when that changes, and otherwise left. -/
def GaugeFollows (e e' : Elector) (notes : List Note) : Prop :=
  ∀ m : Metrics, (notes.foldl Note.measure m).leaders
    = if e'.leading = e.leading then m.leaders
      else Metrics.set e.client.identity e'.leading m.leaders

/-- A flag that stays as it is needs no gauge. -/
theorem gaugeFollows_of_same (hleading : e'.leading = e.leading)
    (hnotes : ∀ note ∈ notes, ∀ m : Metrics, (note.measure m).leaders = m.leaders) :
    e.GaugeFollows e' notes := by
  intro m
  rw [if_pos hleading]
  induction notes generalizing m with
  | nil => rfl
  | cons note rest ih =>
    have hrest := ih (fun other hmem => hnotes other (List.mem_cons_of_mem _ hmem))
    rw [List.foldl_cons, hrest, hnotes note List.mem_cons_self]

/-- What an elector does by itself shows in its gauge. -/
theorem Step.gaugeFollows (h : Step now delay e e' notes) : e.GaugeFollows e' notes := by
  cases h with
  | start _ _ hidle =>
    intro m
    simp [startEpisode, hidle.2, Note.measure, Metrics.record]
  | announce _ _ hleaving =>
    intro m
    simp [notifyStopped, hleaving.2, Note.measure, Metrics.record]
  | @revoke _ _ episode _ _ _ _ _ _ =>
    refine gaugeFollows_of_same rfl fun note hnote m => ?_
    split at hnote
    · cases hnote
    · rw [List.mem_singleton.mp hnote]
      rfl
  -- the steps below change no flag, and what is said with them sets no gauge
  | giveUp _ _ _ | lose _ _ _ _ =>
    refine gaugeFollows_of_same rfl fun note hnote m => ?_
    rw [List.mem_singleton.mp hnote]
    rfl
  | withdraw _ _ _ _ | backOff _ _ _ | compete _ _ _ | rest _ _ _ | renew _ _ _ _
  | relinquish _ _ _ _ | resume _ _ _ | finish _ _ _ _ | settle _ _ | exit _ _ _ _
  | dismiss _ _ _ _ _ _ | release _ _ _ | abandon _ _ _ =>
    refine gaugeFollows_of_same rfl fun note hnote m => ?_
    cases hnote

/-- What an elector notices of the holder is not measured. -/
theorem leaders_observe (e : Elector) (outcome : Outcome) :
    ∀ note ∈ (e.observe outcome).2, ∀ m : Metrics, (note.measure m).leaders = m.leaders := by
  intro note hnote m
  obtain ⟨holder, notes, hobserve, hnotes⟩ := e.exists_observe outcome
  rw [hobserve] at hnote
  obtain ⟨seen, rfl⟩ := hnotes note hnote
  rfl

/-- An attempt that has ended is counted, and sets no gauge. -/
theorem leaders_acquired (e : Elector) (started : Nat) (result : Except Error Outcome)
    (now : Moment) (delay : Duration) :
    ∀ note ∈ (e.acquired started result now delay).2, ∀ m : Metrics,
      (note.measure m).leaders = m.leaders := by
  have hcounted : ∀ text, ∀ note ∈ [Note.measured (.acquireAttempt text)], ∀ m : Metrics,
      (note.measure m).leaders = m.leaders := by
    intro text note hnote m
    rw [List.mem_singleton.mp hnote]
    rfl
  intro note hnote
  -- a grant and a denial are counted under different labels, and neither count is a gauge
  cases result with
  | error error => exact hcounted _ note hnote
  | ok outcome =>
    have hseen : note ∈ (e.observe outcome).2 ++ [.measured (.acquireAttempt "granted")]
        ∨ note ∈ (e.observe outcome).2 ++ [.measured (.acquireAttempt "held")] := by
      unfold acquired at hnote
      simp only at hnote
      split at hnote
      · exact .inl hnote
      · exact .inr hnote
    rcases hseen with hmem | hmem
    · exact (List.mem_append.mp hmem).elim (e.leaders_observe outcome note) (hcounted _ note)
    · exact (List.mem_append.mp hmem).elim (e.leaders_observe outcome note) (hcounted _ note)

/-- A renewal that has ended sets no gauge. -/
theorem leaders_renewed (e : Elector) (deadline started : Nat) (result : Except Error Outcome)
    (now : Moment) :
    ∀ note ∈ (e.renewed deadline started result now).2, ∀ m : Metrics,
      (note.measure m).leaders = m.leaders := by
  intro note hnote
  cases result with
  | error error => cases hnote
  | ok outcome =>
    unfold renewed at hnote
    simp only at hnote
    split at hnote
    · exact e.leaders_observe outcome note hnote
    · rcases List.mem_append.mp hnote with hmem | hmem
      · exact e.leaders_observe outcome note hmem
      · intro m
        rw [List.mem_singleton.mp hmem]
        rfl

/-- A reply leaves the flag: it moves only when an episode starts or its end is announced. -/
theorem Taken.leading_eq (h : Taken now delay reply e e' notes) : e'.leading = e.leading := by
  cases h <;> rfl

/-- What an elector does with a reply leaves flag and gauge alone. -/
theorem Coherent.gaugeFollows_answer (h : e.Coherent) {request : Request}
    (hrequest : e.request? = some request) (now : Moment) (delay : Duration) (reply : Reply) :
    e.GaugeFollows (e.answer now delay reply).1 (e.answer now delay reply).2 := by
  refine gaugeFollows_of_same (h.taken hrequest).leading_eq fun note hnote => ?_
  unfold answer at hnote
  split at hnote
  · split at hnote
    · cases hnote
    · exact leaders_acquired _ _ _ _ _ note hnote
  · split at hnote
    · cases hnote
    · exact leaders_renewed _ _ _ _ _ note hnote
  · split at hnote
    · cases hnote
    · cases hnote
  · cases hnote

end Elector

/-- What a candidate does shows in its gauge. -/
theorem Candidate.Advance.gaugeFollows {c after : Candidate} {store store' : Shared}
    {now : Moment} {delay : Duration} {notes : List Note} {reply : Option Reply}
    (h : c.Advance store now delay after store' notes reply) (hcoherent : c.elector.Coherent) :
    c.elector.GaugeFollows after.elector notes := by
  cases h with
  | send hrequest htransit =>
    refine Elector.gaugeFollows_of_same rfl fun note hnote => ?_
    cases hnote
  | receive hrequest htransit harrived hdeliver =>
    exact hcoherent.gaugeFollows_answer hrequest now delay _
  | act hadvance => exact (hcoherent.step hadvance).gaugeFollows

namespace Arena

variable {ι : Type} [DecidableEq ι] {config : ElectionConfig ι} {p : Arena ι → Prop}
  {a a' : Arena ι} {metrics : Metrics}

/-- What candidates come to through points at which something holds, and what they
have measured on the way. Only what a candidate does by itself is measured. -/
inductive Run (config : ElectionConfig ι) (p : Arena ι → Prop) : Arena ι → Metrics → Prop
  | start (born : ι → Nat) (records : Memory) (files : FileTree) (now : Nat)
      (hborn : ∀ i, born i ≤ now) (hp : p (initial config born records files now)) :
      Run config p (initial config born records files now) .empty
  /-- A candidate takes its next step. -/
  | advance {a : Arena ι} {metrics : Metrics} (h : Run config p a metrics) (i : ι) (wall : Nat)
      (delay : Duration) (after : Candidate) (store : Shared) (notes : List Note)
      (hrunning : (a.seats i).running = true)
      (hadvance : (a.seats i).candidate.advance a.store ⟨a.now, wall⟩ delay
        = some (after, store, notes))
      (hp : p { a.put i ((a.seats i).follow a.now after notes
        ((a.seats i).candidate.reply? a.store a.now)) with store := store }) :
      Run config p { a.put i ((a.seats i).follow a.now after notes
        ((a.seats i).candidate.reply? a.store a.now)) with store := store }
        (notes.foldl Note.measure metrics)
  /-- Something happens to the electors from outside. -/
  | outside {a a' : Arena ι} {metrics : Metrics} (h : Run config p a metrics) (hmove : Move a a')
      (houtside : ∀ i, ∃ shutdown f, (a'.seats i).candidate.elector
        = (a.seats i).candidate.elector.outside shutdown f) (hp : p a') : Run config p a' metrics

/-- What a measured run comes to, candidates come to. -/
theorem Run.reachable (h : Run config p a metrics) : Reachable config a := by
  induction h with
  | start born records files now hborn hp => exact .start born records files now hborn
  | advance _ i wall delay after store notes hrunning hadvance hp ih =>
    exact .move ih (.advance _ i wall delay after store notes hrunning hadvance)
  | outside _ hmove houtside hp ih => exact .move ih hmove

/-- Whatever happens next goes on with a run. -/
theorem Run.move (h : Run config p a metrics) (hmove : Move a a') (hp : p a') :
    ∃ metrics', Run config p a' metrics' := by
  have hself : ∀ e : Elector, e = e.outside e.shutdown id := by
    intro e
    simp [Elector.outside]
  -- in each case but one it is enough to look at the seat that is changed
  have hput : ∀ (i : ι) (seat : Seat),
      (∃ shutdown f, seat.candidate.elector
        = (a.seats i).candidate.elector.outside shutdown f) →
      ∀ j, ∃ shutdown f, ((a.put i seat).seats j).candidate.elector
        = (a.seats j).candidate.elector.outside shutdown f := by
    intro i seat hseat j
    refine put_forall (p := fun j s => ∃ shutdown f, s.candidate.elector
      = (a.seats j).candidate.elector.outside shutdown f) hseat (fun j _ => ?_) j
    exact ⟨_, _, hself _⟩
  cases hmove with
  | start i => exact ⟨_, h.outside (.start a i) (hput i _ ⟨_, _, hself _⟩) hp⟩
  | cancel i =>
    exact ⟨_, h.outside (.cancel a i) (hput i _ ⟨_, _, Elector.cancel_eq _⟩) hp⟩
  | endBody i hbody =>
    exact ⟨_, h.outside (.endBody a i hbody) (hput i _ ⟨_, _, Elector.endBody_eq _⟩) hp⟩
  | route i traffic => exact ⟨_, h.outside (.route a i traffic) (hput i _ ⟨_, _, hself _⟩) hp⟩
  | fault i call error =>
    exact ⟨_, h.outside (.fault a i call error) (hput i _ ⟨_, _, hself _⟩) hp⟩
  | advance i wall delay after store notes hrunning hadvance =>
    exact ⟨_, h.advance i wall delay after store notes hrunning hadvance hp⟩
  | pass t wall delay hle hcalm hdue =>
    exact ⟨_, h.outside (.pass a t wall delay hle hcalm hdue) (fun i => ⟨_, _, hself _⟩) hp⟩

/-- Lets one thing happen after another, as long as a test is passed at each point. -/
def playWhile (everyone : List ι) (test : Arena ι → Bool) (a : Arena ι) :
    List (Deed ι) → Option (Arena ι)
  | [] => some a
  | deed :: rest => (a.act everyone deed).bind fun next =>
    if test next then playWhile everyone test next rest else none

/-- What can be played goes on with a run. -/
theorem Run.playWhile {everyone : List ι} (hall : ∀ i, i ∈ everyone) {test : Arena ι → Bool}
    (hp : ∀ b, test b = true → p b) (h : Run config p a metrics) {deeds : List (Deed ι)}
    (hplay : a.playWhile everyone test deeds = some a') :
    ∃ metrics', Run config p a' metrics' := by
  induction deeds generalizing a metrics with
  | nil =>
    cases hplay
    exact ⟨metrics, h⟩
  | cons deed rest ih =>
    obtain ⟨next, hact, hrest⟩ := Option.bind_eq_some_iff.mp hplay
    split at hrest
    · rename_i htest
      obtain ⟨metrics', hnext⟩ := h.move (move_of_act hall hact) (hp next htest)
      exact ih hnext hrest
    · cases hrest

/-- The gauges show the flags of candidates: each gauge is that of a candidate, and
who says that it leads has one. -/
structure Gauged (config : ElectionConfig ι) (a : Arena ι) (metrics : Metrics) : Prop where
  nodup : (metrics.leaders.map Prod.fst).Nodup
  shows : ∀ label now, (label, now) ∈ metrics.leaders →
    ∃ i, config.identity i = label ∧ (a.seats i).candidate.elector.leading = now
  flagged : ∀ i, (a.seats i).candidate.elector.leading = true →
    (config.identity i, true) ∈ metrics.leaders

omit [DecidableEq ι] in
/-- Whether the gauges show the flags depends on the flags alone. -/
theorem Gauged.congr (h : Gauged config a metrics)
    (hsame : ∀ i, (a'.seats i).candidate.elector.leading = (a.seats i).candidate.elector.leading) :
    Gauged config a' metrics := by
  refine ⟨h.nodup, fun label now hmem => ?_, fun i hleading => ?_⟩
  · obtain ⟨i, hlabel, hnow⟩ := h.shows label now hmem
    exact ⟨i, hlabel, (hsame i).trans hnow⟩
  · exact h.flagged i ((hsame i).symm.trans hleading)

/-- A candidate whose gauge follows its flag leaves every gauge right. -/
theorem Gauged.put (h : Gauged config a metrics) (hinjective : Function.Injective config.identity)
    {i : ι} {seat : Seat} {notes : List Note}
    (hidentity : (a.seats i).candidate.elector.client.identity = config.identity i)
    (hfollows : (a.seats i).candidate.elector.GaugeFollows seat.candidate.elector notes) :
    Gauged config (a.put i seat) (notes.foldl Note.measure metrics) := by
  have hleaders := hfollows metrics
  -- the gauge moves just where the flag has
  split at hleaders
  · rename_i hsame
    have hflags : Gauged config (a.put i seat) metrics := h.congr
      (put_forall (p := fun j s => s.candidate.elector.leading
        = (a.seats j).candidate.elector.leading) hsame fun j _ => rfl)
    exact ⟨hleaders ▸ hflags.nodup, hleaders ▸ hflags.shows, hleaders ▸ hflags.flagged⟩
  · rw [hidentity] at hleaders
    refine ⟨?_, fun label now hmem => ?_, fun j hleading => ?_⟩
    · rw [hleaders]
      exact Metrics.nodup_set h.nodup
    · rw [hleaders] at hmem
      -- the gauge that has moved shows the new flag; the others show what they did
      by_cases hlabel : label = config.identity i
      · subst hlabel
        refine ⟨i, rfl, ?_⟩
        rw [put_self]
        exact Metrics.eq_of_mem_of_nodup (Metrics.nodup_set h.nodup) Metrics.mem_set_self hmem
      · obtain ⟨j, hj, hnow⟩ := h.shows label now ((Metrics.mem_set_other hlabel).mp hmem)
        have hne : j ≠ i := fun heq => hlabel (by rw [← hj, heq])
        exact ⟨j, hj, by rw [put_other a seat hne, hnow]⟩
    · rw [hleaders]
      by_cases hj : j = i
      · subst hj
        rw [put_self] at hleading
        rw [hleading]
        exact Metrics.mem_set_self
      · rw [put_other a seat hj] at hleading
        exact (Metrics.mem_set_other fun heq => hj (hinjective heq)).mpr (h.flagged j hleading)

/-- At every point of a measured run the gauges show the flags. -/
theorem Run.gauged (h : Run config p a metrics) (hinjective : Function.Injective config.identity)
    (hnonempty : ∀ i, config.identity i ≠ "") : Gauged config a metrics := by
  induction h with
  | start born records files now hborn hp =>
    refine ⟨List.nodup_nil, fun label now hmem => ?_, fun i hleading => ?_⟩
    · cases hmem
    · cases hleading
  | @advance a metrics hrun i wall delay after store notes hrunning hadvance hp ih =>
    obtain ⟨written, hcustody⟩ := hrun.reachable.inCustody hinjective hnonempty
    have hcoherent := (hrun.reachable.course hrunning).coherent
    have hput : Gauged config (a.put i ((a.seats i).follow a.now after notes
        ((a.seats i).candidate.reply? a.store a.now))) (notes.foldl Note.measure metrics) :=
      ih.put hinjective (hcustody.custody i).identity_eq
        ((Candidate.advance_cases hadvance).gaugeFollows hcoherent)
    exact hput.congr fun j => rfl
  -- what comes from outside changes no flag, and nothing of it is measured
  | outside hrun hmove houtside hp ih =>
    refine ih.congr fun i => ?_
    obtain ⟨shutdown, f, houtside⟩ := houtside i
    rw [houtside]
    rfl

omit [DecidableEq ι] in
/-- The gauges sum up to one at most exactly when at most one candidate says that it
leads. -/
theorem Gauged.leaderSum_le_one (h : Gauged config a metrics)
    (hinjective : Function.Injective config.identity) :
    metrics.leaderSum ≤ 1 ↔ ∀ i j, (a.seats i).candidate.elector.leading = true →
      (a.seats j).candidate.elector.leading = true → i = j := by
  rw [Metrics.leaderSum_le_one h.nodup]
  constructor
  · intro hone i j hi hj
    exact hinjective (hone _ _ (h.flagged i hi) (h.flagged j hj))
  · intro hone label other hlabel hother
    obtain ⟨i, rfl, hi⟩ := h.shows label true hlabel
    obtain ⟨j, rfl, hj⟩ := h.shows other true hother
    rw [hone i j hi hj]

end Arena

end Tenure.Leader
