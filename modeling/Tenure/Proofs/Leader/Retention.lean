import Tenure.Proofs.Leader.Exclusion

/-!
# `Tenure.Proofs.Leader.Retention`: the record behind a flag

A candidate says that it leads from the start of an episode until its end is
announced. That is longer than it claims the lock: when the body has ended, the lock
may have to be given up first. Its record stays in the store for the lease of the
last grant during that time, too. Only the last call of giving up replaces it, and
then the end is announced next.

* `Elector.Coherent.retains`: who says that it leads, and is not about to announce
  the end, claims the lock or is giving it up.
* `Arena.Reachable.kept`: for a lease after its last grant the record in the store is
  that candidate's.
-/

set_option autoImplicit false

namespace Tenure.Leader

open Lease Store

namespace Elector

/-- The episode is over, and the lock is to be given up. -/
inductive IsResigning (e : Elector) : Prop
  | due {cause : Event} (hstage : e.stage = .performing cause [.releaseLock, .notifyStopped]) :
      IsResigning e
  | underway {cause : Event} {rest : List Effect} {limit : Nat} {surrender : Surrender}
      (hstage : e.stage = .releasing cause rest limit surrender) : IsResigning e

/-- The elector claims the lock, or is giving it up. -/
def Retains (e : Elector) : Prop := e.IsClaiming ∨ e.IsResigning

/-- Whether the end of the episode is to be announced next. -/
def isAnnouncing (e : Elector) : Bool :=
  match e.stage with
  | .performing _ [.notifyStopped] => true
  | _ => false

variable {e e' : Elector} {now : Moment} {delay : Duration} {reply : Reply} {notes : List Note}

/-- Who has nothing urgent to do is not announcing anything. -/
theorem isAnnouncing_of_calm (h : e.urgent = false) : e.isAnnouncing = false := by
  cases hstage : e.stage with
  | performing cause effects => simp [urgent, hstage] at h
  | _ => simp [isAnnouncing, hstage]

/-- Who says that it leads has an episode, or is on the way to the announcement. -/
theorem Coherent.retains (h : e.Coherent) (hleading : e.leading = true)
    (hsilent : e.isAnnouncing = false) : e.Retains := by
  -- an elector that says it leads is in office, is waiting for its body, or is giving the lock up
  have hoffice : e.InOffice → e.Retains := by
    rintro ⟨⟨episode, hepisode⟩, -⟩
    exact .inl (.inr (by simp [hepisode]))
  have hidle : ¬ e.IsIdle := fun hidle => by simp [hidle.2] at hleading
  have hsettled : e.IsSettled → e.Retains := fun hs =>
    hoffice ((idle_or_inOffice_of_settled hs).resolve_left hidle)
  cases hstage : e.stage with
  | ready => exact hsettled (by simpa [Coherent, hstage] using h)
  | performing cause effects =>
    have hp : e.Pending effects := by simpa [Coherent, hstage] using h
    cases hp with
    | nothing hs => exact hsettled hs
    | start _ hnone => exact absurd hnone hidle
    | exit _ hnone _ => exact absurd hnone hidle
    | cancel _ hin _ => exact hoffice hin
    | close _ _ hclosing =>
      cases hclosing with
      | announce => simp [isAnnouncing, hstage] at hsilent
      | release => exact .inr (.due hstage)
  | backingOff _ | competing _ _ | retrying _ =>
    have hc : e.machine.phase = .candidate ∧ e.IsIdle := by simpa [Coherent, hstage] using h
    exact absurd hc.2 hidle
  | resting _ _ | renewing _ _ _ | pausing _ _ =>
    have hc : e.machine.phase = .leading ∧ e.InOffice := by simpa [Coherent, hstage] using h
    exact hoffice hc.2
  | stopping cause rest =>
    obtain ⟨-, -, ⟨episode, hepisode, -⟩, -⟩ : e.IsOut ∧ Closing rest ∧
        (∃ episode, e.episode = some episode ∧ episode.cancelled = true) ∧ e.leading = true := by
      simpa [Coherent, hstage] using h
    exact .inl (.inr (by simp [hepisode]))
  | releasing cause rest limit surrender => exact .inr (.underway hstage)
  | aborting error => simp [Coherent, hstage] at h
  | finished error =>
    have hdone : error = none ∧ e.machine.phase = .stopped ∧ e.IsIdle ∧ e.shutdown = true := by
      simpa [Coherent, hstage] using h
    exact absurd hdone.2.2.1 hidle

/-- What an elector does by itself begins to give up only what it has claimed. -/
theorem Step.resigning (h : Step now delay e e' notes) (hafter : e'.IsResigning) : e.Retains := by
  cases h with
  | release hstage _ _ => exact .inr (.due hstage)
  | dismiss _ hepisode _ _ _ _ => exact .inl (.inr (by simp [hepisode]))
  | relinquish _ _ hphase _ => exact .inl (.inl hphase)
  | withdraw _ _ _ _ | backOff _ _ _ | compete _ _ _ | giveUp _ _ _ | rest _ _ _ | renew _ _ _ _
  | lose _ _ _ _ | resume _ _ _ | finish _ _ _ _ | settle _ _ | start _ _ _ | exit _ _ _ _
  | revoke _ _ _ _ _ _ | abandon _ _ _ | announce _ _ _ =>
    -- none of these leads to a stage in which the lock is given up
    cases hafter with
    | due hstage => cases hstage
    | underway hstage => cases hstage

/-- An elector that still gives the lock up after a reply has only looked at the
record. -/
theorem Taken.resigning (h : Taken now delay reply e e' notes) {request : Request}
    (hrequest : e.request? = some request) (hfits : reply.fits request = true)
    (hafter : e'.IsResigning) : e.IsResigning ∧ ∃ found, reply = .found found := by
  cases h with
  | @vacate cause limit surrender next client hstage hreply _ _ =>
    refine ⟨.underway hstage, ?_⟩
    have hsurrender : e.surrender? = some surrender := by simp [surrender?, hstage]
    rw [request_of_surrender hrequest hsurrender] at hfits
    have hanswered := e.client.answeredRelease surrender now reply
    rw [hreply] at hanswered
    generalize hask : Next.ask next = result at hanswered
    cases hanswered with
    -- only the lookup of giving up leads on to a call that gives up, and it has found a record
    | own hfound _ => exact ⟨_, hfound⟩
    | keep _ => cases hask
    | vacated _ => cases hask
    | failed _ _ => cases hask
    | stray hunfit =>
      rw [hunfit] at hfits
      cases hfits
  | ask _ _ _ _ | win _ _ _ _ _ _ | miss _ _ _ _ _ _ | askAgain _ _ _ _ | keep _ _ _ _ _ _
  | lose _ _ _ _ _ _ | fail _ _ _ _ | leave _ _ _ _ =>
    cases hafter with
    | due hstage => cases hstage
    | underway hstage => cases hstage

/-- A reply to an elector that gives the lock up grants nothing. -/
theorem IsResigning.denied (h : e.IsResigning) (now : Nat) (reply : Reply) :
    e.isGrantedBy now reply = false := by
  cases h with
  | due hstage => simp [isGrantedBy, hstage]
  | underway hstage => simp [isGrantedBy, hstage]

end Elector

namespace Seat

variable {ι : Type} {config : ElectionConfig ι} {i : ι} {current : Option (Versioned Record)}
  {written now : Nat} {s s' : Seat}

/-- For a lease after its last grant, a candidate that gives the lock up has its
record in the store. -/
def Keeps (config : ElectionConfig ι) (i : ι) (current : Option (Versioned Record))
    (written now : Nat) (s : Seat) : Prop :=
  s.candidate.elector.IsResigning → ∀ g ∈ s.chronicle.grant,
    now < Clock.after g.landed config.advertised → config.Owns i current written g

/-- What happens from outside leaves a candidate where it is with the lock. -/
theorem Keeps.stay (h : s.Keeps config i current written now)
    (hstage : s'.candidate.elector.stage = s.candidate.elector.stage)
    (hgrant : s'.chronicle.grant = s.chronicle.grant) : s'.Keeps config i current written now := by
  intro hresigning g hg hnow
  refine h ?_ g (hgrant ▸ hg) hnow
  cases hresigning with
  | due hs => exact .due (hstage ▸ hs)
  | underway hs => exact .underway (hstage ▸ hs)

/-- What a candidate keeps for a lease it keeps as time passes. -/
theorem Keeps.mono (h : s.Keeps config i current written now) {t : Nat} (hle : now ≤ t) :
    s.Keeps config i current written t :=
  fun hresigning g hg hnow => h hresigning g hg (Nat.lt_of_le_of_lt hle hnow)

/-- For a lease after its last grant, the record of a candidate that retains the lock
is in the store. -/
theorem Keeps.owns (h : s.Keeps config i current written now)
    (hcustody : Custody config i current written now s) (hretains : s.candidate.elector.Retains)
    {g : Grant} (hg : s.chronicle.grant = some g)
    (hnow : now < Clock.after g.landed config.advertised) : config.Owns i current written g := by
  rcases hretains with hclaim | hresigning
  · exact hcustody.hold hclaim g hg hnow
  · exact h hresigning g hg hnow

/-- A candidate that gives the lock up after a step has not written. -/
theorem Keeps.advance (h : s.Keeps config i current written now)
    (hcustody : Custody config i current written now s) {store store' : Shared} {wall : Nat}
    {delay : Duration} {after : Candidate} {notes : List Note} {reply : Option Reply}
    (hmemory : store.IsMemory) (hcurrent : store.record? config.key = current)
    (hcoherent : s.candidate.elector.Coherent)
    (hadvance : s.candidate.Advance store ⟨now, wall⟩ delay after store' notes reply) :
    (s.follow now after notes reply).Keeps config i current written now
      ∧ (after.elector.IsResigning → store'.record? config.key = current) := by
  cases hadvance with
  | send hrequest htransit =>
    refine ⟨h.stay rfl rfl, fun _ => hcurrent⟩
  | act hadvance =>
    have hstep := hcoherent.step hadvance
    refine ⟨fun hresigning g hg hnow => ?_, fun _ => hcurrent⟩
    exact h.owns hcustody (hstep.resigning hresigning) hg hnow
  | @receive request transit link _ reply hrequest htransit harrived hdeliver =>
    obtain ⟨-, -, hserved⟩ := Custody.deliver_served hcustody.faults hmemory request transit
    rw [hdeliver, hcustody.key_eq, hcurrent] at hserved
    have htaken : s.candidate.elector.Taken ⟨now, wall⟩ delay reply _ _ := hcoherent.taken hrequest
    -- a candidate that is still giving up has only looked so far, and a lookup writes nothing
    have hlooked := htaken.resigning hrequest hserved.fits
    refine ⟨fun hresigning g hg hnow => ?_, fun hresigning => ?_⟩
    · -- no grant has come with the reply
      have hbefore := (hlooked hresigning).1
      refine h hbefore g ?_ hnow
      simpa [Seat.follow, Chronicle.hear, Chronicle.follow, hbefore.denied now reply] using hg
    · obtain ⟨-, found, hfound⟩ := hlooked hresigning
      exact (hserved.found hfound).1

end Seat

namespace Arena

variable {ι : Type} {config : ElectionConfig ι} {a : Arena ι}

/-- Every candidate is in custody of the record, also while it gives the lock up. -/
structure Kept (config : ElectionConfig ι) (a : Arena ι) (written : Nat) : Prop where
  custody : a.InCustody config written
  keeps : ∀ i, (a.seats i).Keeps config i (a.store.record? config.key) written a.now

/-- A candidate changes without a write. -/
theorem Kept.put [DecidableEq ι] {written : Nat} (h : a.Kept config written) {i : ι} {seat : Seat}
    (hcustody : Custody config i (a.store.record? config.key) written a.now seat)
    (hkeeps : seat.Keeps config i (a.store.record? config.key) written a.now) :
    (a.put i seat).Kept config written :=
  ⟨h.custody.put hcustody, put_forall hkeeps fun j _ => h.keeps j⟩

/-- Whatever one candidate does keeps all of them in custody, also those that are giving the lock
up. -/
theorem Kept.advance [DecidableEq ι] {written wall : Nat} (h : a.Kept config written)
    (hinjective : Function.Injective config.identity) (hnonempty : ∀ i, config.identity i ≠ "")
    {i : ι} {delay : Duration} {after : Candidate} {store : Shared} {notes : List Note}
    {reply : Option Reply} (hcoherent : (a.seats i).candidate.elector.Coherent)
    (hadvance : (a.seats i).candidate.Advance a.store ⟨a.now, wall⟩ delay after store notes reply) :
    ∃ written', Arena.Kept config
      { a.put i ((a.seats i).follow a.now after notes reply) with store := store } written' := by
  have hbefore := h.custody.custody i
  obtain ⟨hmemory, hwrite⟩ :=
    hbefore.advance h.custody.memory rfl h.custody.written_le hcoherent hadvance
  obtain ⟨hkeeps, hunwritten⟩ :=
    (h.keeps i).advance hbefore h.custody.memory rfl hcoherent hadvance
  -- either nothing was written, or the writer could take the record: then nobody else owned it any
  -- more
  rcases hwrite with ⟨hsame, hseat⟩ | ⟨hsucceeds, hseat, htake⟩
  · refine ⟨written, ⟨hmemory, h.custody.written_le, put_forall ?_ fun j _ => ?_⟩,
      put_forall ?_ fun j _ => ?_⟩
    · rw [hsame]
      exact hseat
    · rw [hsame]
      exact h.custody.custody j
    · rw [hsame]
      exact hkeeps
    · rw [hsame]
      exact h.keeps j
  · have hothers : ∀ j, j ≠ i → ∀ {g : Grant},
        config.Owns j (a.store.record? config.key) written g →
          ¬ a.now < Clock.after g.landed config.advertised :=
      fun j hj _ => h.custody.not_owned hinjective hnonempty hj htake
    refine ⟨a.now, ⟨hmemory, Nat.le_refl _, put_forall hseat fun j hj => ?_⟩,
      put_forall ?_ fun j hj => ?_⟩
    · refine (h.custody.custody j).succeeds hsucceeds fun hclaim g hg hnow => ?_
      exact hothers j hj ((h.custody.custody j).hold hclaim g hg hnow) hnow
    · -- who has written is not giving the lock up any more
      intro hresigning
      exact absurd (hunwritten hresigning) hsucceeds.ne
    · intro hresigning g hg hnow
      exact absurd hnow (hothers j hj (h.keeps j hresigning g hg hnow))

/-- Among candidates with different identities, whoever gives the lock up has its
record in the store for a lease after its last grant. -/
theorem Reachable.kept [DecidableEq ι] (h : Reachable config a)
    (hinjective : Function.Injective config.identity) (hnonempty : ∀ i, config.identity i ≠ "") :
    ∃ written, a.Kept config written := by
  induction h with
  | start born records files now hborn =>
    refine ⟨now, custody_initial config born records files now, fun i hresigning => ?_⟩
    -- nobody has anything to give up at the start
    cases hresigning with
    | due hstage => cases hstage
    | underway hstage => cases hstage
  | @move a a' hreach hmove ih =>
    obtain ⟨written, ih⟩ := ih
    cases hmove with
    | start i => exact ⟨written, ih.put (ih.custody.custody i).start ((ih.keeps i).stay rfl rfl)⟩
    | cancel i =>
      refine ⟨written, ih.put (ih.custody.custody i).cancel ((ih.keeps i).stay ?_ rfl)⟩
      exact Elector.stage_cancel _
    | endBody i hbody =>
      exact ⟨written, ih.put (ih.custody.custody i).endBody ((ih.keeps i).stay rfl rfl)⟩
    | route i traffic =>
      exact ⟨written, ih.put ((ih.custody.custody i).relink (ih.custody.custody i).faults)
        ((ih.keeps i).stay rfl rfl)⟩
    | fault i call error =>
      refine ⟨written, ih.put ((ih.custody.custody i).relink ?_) ((ih.keeps i).stay rfl rfl)⟩
      exact Link.onlyFails_expect (ih.custody.custody i).faults call error
    | advance i wall delay after store notes hrunning hadvance =>
      have hcoherent := (hreach.course hrunning).coherent
      exact ih.advance hinjective hnonempty hcoherent (Candidate.advance_cases hadvance)
    | pass t wall delay hle hcalm hdue =>
      exact ⟨written, ih.custody.pass hreach.fits hle hdue, fun i => (ih.keeps i).mono hle⟩

/-- Of two candidates that retain the lock, the lease of one has run out. -/
theorem Kept.eq_of_retains {written : Nat} (h : a.Kept config written)
    (hinjective : Function.Injective config.identity) {i j : ι}
    (hi : (a.seats i).candidate.elector.Retains) (hj : (a.seats j).candidate.elector.Retains)
    {g g' : Grant} (hg : (a.seats i).chronicle.grant = some g)
    (hg' : (a.seats j).chronicle.grant = some g')
    (hnow : a.now < Clock.after g.landed config.advertised)
    (hnow' : a.now < Clock.after g'.landed config.advertised) : i = j := by
  obtain ⟨latest, hlatest, hholder, -⟩ :=
    (h.keeps i).owns (h.custody.custody i) hi hg hnow
  obtain ⟨latest', hlatest', hholder', -⟩ :=
    (h.keeps j).owns (h.custody.custody j) hj hg' hnow'
  obtain rfl : latest = latest' := Option.some.inj (hlatest.symm.trans hlatest')
  exact hinjective (hholder.symm.trans hholder')

end Arena

end Tenure.Leader
