import Mathlib.Data.List.Chain
import Tenure.Proofs.Leader.Deadline
import Tenure.Proofs.Leader.Deed

/-!
# `Tenure.Proofs.Leader.Pace`: a retry period between attempts

Beside the course of an elector stands a diary: when the attempts to take the lease have
begun, and when each episode has started and its end was announced. It is read off the
clock and off what the elector says, not off the timers that the elector sets.

The pause between two attempts comes from two places. An attempt that ends without the
lease is followed by a wait. An episode that ends by itself raises a flag, and the
elector waits when it is next about to compete. The flag stays down only for an elector
that was told to shut down, and that one does not compete again. `Spaced` is what every
deed preserves, stage by stage: a timer that is set lies a retry period after the last
attempt and after the last announcement, and an elector on its way from an announcement
to its next attempt has the flag up.

* `advance_competing`: an attempt begins when a timer has rung, or at once when neither
  the flag is up nor the elector is told to shut down.
* `Paced.attempts_apart`: attempts are a retry period apart, and so is each episode from the
  announcement before it; so a window holds one start, and one more for each retry
  period that fits into it, at most.
-/

set_option autoImplicit false

namespace Tenure.Leader

open Lease Store

/-- An episode as it is seen: when it has started, and when its end was announced. -/
structure Spell where
  started : Nat
  stopped : Option Nat
deriving Repr, DecidableEq

/-- What is taken down of an elector, the last thing first. -/
structure Diary where
  /-- When the attempts to take the lease have begun. -/
  attempts : List Nat
  spells : List Spell
deriving Repr, DecidableEq

namespace Elector

/-- Whether an attempt to take the lease is under way. -/
def isCompeting (e : Elector) : Bool :=
  match e.stage with
  | .competing .. => true
  | _ => false

/-- Whether the elector waits before it competes. -/
def isHoldingOff (e : Elector) : Bool :=
  match e.stage with
  | .backingOff _ | .retrying _ => true
  | _ => false

end Elector

/-- Nothing that is said tells of the start or the end of an episode. -/
def Uneventful (notes : List Note) : Prop := ∀ note ∈ notes, note ≠ .started ∧ note ≠ .stopped

/-- Saying nothing tells of no episode. -/
theorem uneventful_nil : Uneventful [] := fun note hnote => by cases hnote

/-- The cancellation of a token tells neither of a start nor of an end. -/
theorem uneventful_of_cancelled {notes : List Note} (h : ∀ note ∈ notes, note = .cancelled) :
    Uneventful notes := by
  intro note hnote
  rw [h note hnote]
  simp

/-- What says nothing about an episode tells neither of a start nor of an end. -/
theorem Elector.Quiet.uneventful {notes : List Note} (h : Elector.Quiet notes) :
    Uneventful notes := by
  intro note hnote
  rcases h note hnote with ⟨holder, rfl⟩ | ⟨measurement, rfl⟩
  · simp
  · simp

namespace Diary

/-- Nothing is taken down yet. -/
def blank : Diary := ⟨[], []⟩

/-- Takes down that an episode starts or that its end is announced. -/
def mark (now : Nat) (spells : List Spell) : Note → List Spell
  | .started => ⟨now, none⟩ :: spells
  | .stopped =>
    match spells with
    | [] => []
    | last :: rest => { last with stopped := some now } :: rest
  | _ => spells

/-- Takes down what an elector has done. -/
def follow (d : Diary) (now : Nat) (before after : Elector) (notes : List Note) : Diary where
  attempts := if after.isCompeting && !before.isCompeting then now :: d.attempts else d.attempts
  spells := notes.foldl (mark now) d.spells

/-- The last attempt has begun some time before an instant. -/
def TriedBefore (d : Diary) (gap instant : Nat) : Prop :=
  ∀ began ∈ d.attempts.head?, began + gap ≤ instant

/-- The end of the last episode was announced some time before an instant. -/
def StoppedBefore (d : Diary) (gap instant : Nat) : Prop :=
  ∀ last ∈ d.spells.head?, ∃ stop ∈ last.stopped, stop + gap ≤ instant

variable {d : Diary} {gap other instant after : Nat}

/-- The later the instant, the longer ago the last attempt. -/
theorem TriedBefore.later (h : d.TriedBefore gap instant) (hle : instant + other ≤ after + gap) :
    d.TriedBefore other after := by
  intro began hbegan
  have hbefore := h began hbegan
  omega

/-- The later the instant, the longer ago the end of the last episode. -/
theorem StoppedBefore.later (h : d.StoppedBefore gap instant)
    (hle : instant + other ≤ after + gap) : d.StoppedBefore other after := by
  intro last hlast
  obtain ⟨stop, hstop, hbefore⟩ := h last hlast
  exact ⟨stop, hstop, by omega⟩

/-- What does not concern an episode is not taken down. -/
theorem mark_of_uneventful {now : Nat} {spells : List Spell} {notes : List Note}
    (h : Uneventful notes) : notes.foldl (mark now) spells = spells := by
  induction notes with
  | nil => rfl
  | cons note rest ih =>
    obtain ⟨hstarted, hstopped⟩ := h note List.mem_cons_self
    have hsame : mark now spells note = spells := by
      cases note with
      | started => exact absurd rfl hstarted
      | stopped => exact absurd rfl hstopped
      | _ => rfl
    rw [List.foldl_cons, hsame]
    exact ih fun other hother => h other (List.mem_cons_of_mem _ hother)

end Diary

/-! ### When an attempt begins -/

namespace Elector

variable {e e' : Elector} {now : Moment} {delay : Duration} {notes : List Note}

/-- Who competes at once when it turns to its phase has no pause to make, and is not told
to shut down. -/
theorem turn_competing (hphase : e.machine.phase = .candidate)
    (hturn : e.turn now delay = e.compete now) : e.backoff = false ∧ e.shutdown = false := by
  have hstage := congrArg Elector.stage hturn
  simp only [turn, hphase] at hstage
  split at hstage
  · rw [handle_eq (by simp only [hphase]; rfl)] at hstage
    cases hstage
  · rename_i hshutdown
    split at hstage
    · cases hstage
    · rename_i hbackoff
      exact ⟨by simpa using hbackoff, by simpa using hshutdown⟩

/-- Who competes after a wait has waited for its timer. -/
theorem rung_of_compete {wake : Nat}
    (hstage : e.stage = .backingOff wake ∨ e.stage = .retrying wake)
    (hphase : e.machine.phase = .candidate)
    (hadvance : e.advance now delay = some (e.compete now, notes)) :
    Clock.ring wake ≤ now.instant := by
  have hurgent : e.advanceUrgent now delay = (e.handle .cancelled, []) := by
    rcases hstage with hstage | hstage <;> simp [advanceUrgent, hstage]
  unfold advance at hadvance
  split at hadvance
  · -- told to shut down, the elector would not compete
    rw [hurgent, handle_eq (by rw [hphase]; rfl)] at hadvance
    have hother := congrArg Elector.stage (Prod.ext_iff.mp (Option.some.inj hadvance)).1
    cases hother
  · unfold advanceTimer at hadvance
    -- the timer is what lets it compete, whichever of the two waits it was
    rcases hstage with hstage | hstage
    · simp only [hstage] at hadvance
      split at hadvance
      · rename_i hrung
        simpa [Clock.reached] using hrung
      · cases hadvance
    · simp only [hstage] at hadvance
      split at hadvance
      · rename_i hrung
        simpa [Clock.reached] using hrung
      · cases hadvance

/-- An attempt to take the lease begins when a timer has rung, or at once when no pause is
due and the elector is not told to shut down. -/
theorem advance_competing (hc : e.Coherent) (hadvance : e.advance now delay = some (e', notes))
    (hafter : e'.isCompeting = true) :
    e' = e.compete now ∧ notes = []
      ∧ ((e.stage = .ready ∧ e.backoff = false ∧ e.shutdown = false)
        ∨ ∃ wake, (e.stage = .backingOff wake ∨ e.stage = .retrying wake)
          ∧ Clock.ring wake ≤ now.instant) := by
  cases hc.step hadvance with
  | compete hstage hphase hidle =>
    refine ⟨rfl, rfl, ?_⟩
    rcases hstage with hstage | ⟨wake, hstage⟩ | ⟨wake, hstage⟩
    · have hturn : e.turn now delay = e.compete now := by
        simpa [advance, urgent, advanceUrgent, hstage] using hadvance
      exact .inl ⟨hstage, turn_competing hphase hturn⟩
    · exact .inr ⟨wake, .inl hstage, rung_of_compete (.inl hstage) hphase hadvance⟩
    · exact .inr ⟨wake, .inr hstage, rung_of_compete (.inr hstage) hphase hadvance⟩
  | renew hstage hrung hphase hoffice => simp [isCompeting, renew] at hafter
  | _ => simp [isCompeting] at hafter

/-! ### What every deed preserves -/

/-- How far apart attempts are to be. -/
def gap (e : Elector) : Nat := e.timing.retryPeriod.nanos

/-- Between two episodes the one that is about to start has had its pause, and an elector
that is about to compete has nothing behind it, or a pause before it, or is told to shut
down. -/
def Between (e : Elector) (now : Nat) (d : Diary) : Prop :=
  e.leading = false →
    if e.machine.phase = .leading then d.StoppedBefore e.gap now
    else d = .blank ∨ e.backoff = true ∨ e.shutdown = true

/-- What is known, stage by stage, of what comes next. -/
def StageSpaced (e : Elector) (now : Nat) (d : Diary) : Prop :=
  match e.stage with
  | .backingOff wake | .retrying wake => d.TriedBefore e.gap wake ∧ d.StoppedBefore e.gap wake
  | .competing started _ => started ≤ now ∧ d.TriedBefore 0 started ∧ d.StoppedBefore e.gap started
  | .ready | .performing .. => e.Between now d
  | _ => True

/-- The diary of an elector whose attempts and episodes are a retry period apart. -/
structure Spaced (e : Elector) (now : Nat) (d : Diary) : Prop where
  attempts : d.attempts.IsChain fun later earlier => earlier + e.gap ≤ later
  spells : d.spells.IsChain fun later earlier => ∃ stop ∈ earlier.stopped,
    stop + e.gap ≤ later.started
  ordered : ∀ spell ∈ d.spells, ∀ stop ∈ spell.stopped, spell.started ≤ stop
  tried : d.TriedBefore 0 now
  /-- The episode of an elector that says that it leads has not ended. -/
  ongoing : e.leading = true → ∃ began rest, d.spells = ⟨began, none⟩ :: rest ∧ began ≤ now
  ended : e.leading = false → d.StoppedBefore 0 now
  stage : e.StageSpaced now d

variable {d : Diary} {reply : Reply}

/-- A change that concerns neither an attempt nor an episode leaves the diary as it is. -/
theorem Spaced.keep {instant : Nat} (h : e.Spaced instant d) (htiming : e'.timing = e.timing)
    (hleading : e'.leading = e.leading)
    (hnotes : Uneventful notes) (hcompeting : e'.isCompeting = false ∨ e.isCompeting = true)
    (hstage : e'.StageSpaced instant d) : e'.Spaced instant (d.follow instant e e' notes) := by
  -- nothing is taken down, so the diary stays and only the stage has to be looked at
  have hsame : d.follow instant e e' notes = d := by
    unfold Diary.follow
    have hnone : (e'.isCompeting && !e.isCompeting) = false := by
      rcases hcompeting with hafter | hbefore
      · simp [hafter]
      · simp [hbefore]
    simp [Diary.mark_of_uneventful hnotes, hnone]
  have hgap : e'.gap = e.gap := by rw [gap, htiming]; rfl
  rw [hsame]
  refine ⟨?_, ?_, h.ordered, h.tried, ?_, ?_, hstage⟩
  · rw [hgap]
    exact h.attempts
  · rw [hgap]
    exact h.spells
  · rw [hleading]
    exact h.ongoing
  · rw [hleading]
    exact h.ended

/-- Nothing has to be known while the episode goes on. -/
theorem between_of_leading {instant : Nat} (h : e.leading = true) : e.Between instant d := by
  intro hended
  rw [h] at hended
  cases hended

/-- A wait that begins now, and is long enough, ends a retry period after the last attempt
and after the last announcement. -/
theorem Spaced.wait (h : e.Spaced now.instant d) (hleading : e.leading = false)
    (hlong : e.gap ≤ delay.nanos) :
    d.TriedBefore e.gap (Clock.after now.instant delay)
      ∧ d.StoppedBefore e.gap (Clock.after now.instant delay) := by
  have hle : now.instant + e.gap ≤ Clock.after now.instant delay + 0 :=
    Nat.add_le_add_left hlong _
  exact ⟨h.tried.later hle, (h.ended hleading).later hle⟩

/-- An attempt that begins now lies a retry period after the one before it. -/
theorem Spaced.compete (h : e.Spaced now.instant d) (hidle : e.IsIdle)
    (hphase : e.machine.phase = .candidate) (hbefore : e.isCompeting = false)
    (hwait : (e.stage = .ready ∧ e.backoff = false ∧ e.shutdown = false)
      ∨ ∃ wake, (e.stage = .backingOff wake ∨ e.stage = .retrying wake)
        ∧ Clock.ring wake ≤ now.instant) :
    (e.compete now).Spaced now.instant (d.follow now.instant e (e.compete now) []) := by
  -- whatever the elector has waited for, the last attempt and the last episode lie back
  have hrested : d.TriedBefore e.gap now.instant ∧ d.StoppedBefore e.gap now.instant := by
    have hstage := h.stage
    rcases hwait with ⟨hready, hbackoff, hshutdown⟩ | ⟨wake, hwaiting, hrung⟩
    · simp only [StageSpaced, hready] at hstage
      have hblank : d = .blank := by simpa [hphase, hbackoff, hshutdown] using hstage hidle.2
      subst hblank
      exact ⟨fun began hbegan => (by cases hbegan), fun last hlast => (by cases hlast)⟩
    · have hwake : wake ≤ now.instant := (Clock.le_ring wake).trans hrung
      have hspaced : d.TriedBefore e.gap wake ∧ d.StoppedBefore e.gap wake := by
        rcases hwaiting with hwaiting | hwaiting <;> simpa only [StageSpaced, hwaiting] using hstage
      exact ⟨hspaced.1.later (Nat.add_le_add_right hwake _),
        hspaced.2.later (Nat.add_le_add_right hwake _)⟩
  have hafter : (e.compete now).isCompeting = true := rfl
  have hfollow : d.follow now.instant e (e.compete now) []
      = { d with attempts := now.instant :: d.attempts } := by
    simp [Diary.follow, hafter, hbefore]
  rw [hfollow]
  refine ⟨?_, h.spells, h.ordered, ?_, h.ongoing, h.ended, Nat.le_refl _, ?_, hrested.2⟩
  · exact List.isChain_cons.mpr ⟨hrested.1, h.attempts⟩
  · intro began hbegan
    cases hbegan
    exact Nat.le_refl _
  · intro began hbegan
    cases hbegan
    exact Nat.le_refl _

/-- An episode starts a retry period after the end of the one before it was announced. -/
theorem Spaced.start {cause : Event} (h : e.Spaced now.instant d)
    (hstage : e.stage = .performing cause [.startEpisode]) (hphase : e.machine.phase = .leading)
    (hidle : e.IsIdle) :
    Spaced { e.startEpisode.1 with stage := .performing cause [] } now.instant
      (d.follow now.instant e { e.startEpisode.1 with stage := .performing cause [] }
        e.startEpisode.2) := by
  -- who has left an episode rests for a gap before the next one can start
  have hrested : d.StoppedBefore e.gap now.instant := by
    have hspaced := h.stage
    simp only [StageSpaced, hstage] at hspaced
    simpa [hphase] using hspaced hidle.2
  have hfollow : d.follow now.instant e { e.startEpisode.1 with stage := .performing cause [] }
      e.startEpisode.2 = { d with spells := ⟨now.instant, none⟩ :: d.spells } := by
    simp [Diary.follow, isCompeting, startEpisode, Diary.mark]
  rw [hfollow]
  refine ⟨h.attempts, List.isChain_cons.mpr ⟨hrested, h.spells⟩, ?_, h.tried, ?_, ?_, ?_⟩
  · intro spell hspell stop hstop
    rcases List.mem_cons.mp hspell with rfl | hspell
    · cases hstop
    · exact h.ordered spell hspell stop hstop
  · exact fun _ => ⟨now.instant, d.spells, rfl, Nat.le_refl _⟩
  · exact fun hleading => by cases hleading
  · exact fun hleading => by cases hleading

/-- The end of an episode is announced, and the elector pauses unless it was told to shut
down. -/
theorem Spaced.announce {cause : Event} (h : e.Spaced now.instant d) (hfits : e.CauseFits)
    (hstage : e.stage = .performing cause [.notifyStopped]) (hout : e.IsOut)
    (hleaving : e.IsLeaving) :
    Spaced { (e.notifyStopped cause).1 with stage := .performing cause [] } now.instant
      (d.follow now.instant e { (e.notifyStopped cause).1 with stage := .performing cause [] }
        (e.notifyStopped cause).2) := by
  obtain ⟨began, rest, hspells, hbegan⟩ := h.ongoing hleaving.2
  have hfollow : d.follow now.instant e
      { (e.notifyStopped cause).1 with stage := .performing cause [] } (e.notifyStopped cause).2
        = { d with spells := ⟨began, some now.instant⟩ :: rest } := by
    simp [Diary.follow, isCompeting, notifyStopped, Diary.mark, hspells]
  have hchain := h.spells
  rw [hspells] at hchain
  rw [hfollow]
  refine ⟨h.attempts, ?_, ?_, h.tried, ?_, ?_, ?_⟩
  · exact List.isChain_cons.mpr (List.isChain_cons.mp hchain)
  · intro spell hspell stop hstop
    rcases List.mem_cons.mp hspell with rfl | hspell
    · cases hstop
      exact hbegan
    · exact h.ordered spell (by rw [hspells]; exact List.mem_cons_of_mem _ hspell) stop hstop
  · exact fun hleading => by cases hleading
  · intro _ last hlast
    cases hlast
    exact ⟨now.instant, rfl, Nat.le_refl _⟩
  · intro _
    have hphase : e.machine.phase ≠ .leading := hout.ne_leading
    -- a cancelled elector does not compete again, and any other end is followed by a pause
    have hpause : (cause != .cancelled) = true ∨ e.shutdown = true := by
      simp only [CauseFits, hstage] at hfits
      by_cases hcause : cause = .cancelled
      · exact .inr (hfits.2 hcause)
      · exact .inl (by simpa using hcause)
    show if e.machine.phase = .leading then _ else _
    rw [if_neg hphase]
    exact .inr hpause

/-- Whatever an elector does by itself keeps its diary spaced, when the delays that it
draws are long enough. -/
theorem Step.spaced (h : Step now delay e e' notes) (hs : e.Spaced now.instant d)
    (hc : e.Coherent) (hfits : e.CauseFits) (hadvance : e.advance now delay = some (e', notes))
    (hdelay : e.isHoldingOff = false → e'.isHoldingOff = true → e.gap ≤ delay.nanos) :
    e'.Spaced now.instant (d.follow now.instant e e' notes) := by
  have hspaced := hs.stage
  cases h with
  | withdraw backoff hphase hshutdown hidle =>
    exact hs.keep rfl rfl uneventful_nil (.inl rfl) fun _ => .inr (.inr hshutdown)
  | backOff hstage hphase hidle =>
    have hlong : e.gap ≤ delay.nanos := hdelay (by simp [isHoldingOff, hstage]) rfl
    exact hs.keep rfl rfl uneventful_nil (.inl rfl) (hs.wait hidle.2 hlong)
  | compete hstage hphase hidle =>
    -- an elector that begins to compete has nothing behind it, or a wait whose timer has rung
    obtain ⟨-, -, hwait⟩ := advance_competing hc hadvance rfl
    refine hs.compete hidle hphase ?_ hwait
    rcases hstage with hstage | ⟨wake, hstage⟩ | ⟨wake, hstage⟩ <;> simp [isCompeting, hstage]
  | giveUp hstage hphase hidle =>
    have hlong : e.gap ≤ delay.nanos := hdelay (by simp [isHoldingOff, hstage]) rfl
    exact hs.keep rfl rfl (quiet_measured _).uneventful (.inl rfl) (hs.wait hidle.2 hlong)
  -- in office no attempt counts and no episode starts
  | rest hstage hphase hoffice | renew hstage hrung hphase hoffice =>
    exact hs.keep rfl rfl uneventful_nil (.inl rfl) trivial
  | lose hstage hrung hphase hoffice =>
    exact hs.keep rfl rfl (quiet_measured _).uneventful (.inl rfl) (between_of_leading hoffice.2)
  | relinquish event hevent hphase hoffice =>
    exact hs.keep rfl rfl uneventful_nil (.inl rfl) (between_of_leading hoffice.2)
  -- the pause after an episode is behind a resuming elector, or still ahead of it
  | resume hstage hout hidle =>
    simp only [StageSpaced, hstage, Between, if_neg hout.ne_leading] at hspaced
    exact hs.keep rfl rfl uneventful_nil (.inl rfl) fun _ => hspaced hidle.2
  | finish hstage hphase hidle hshutdown =>
    exact hs.keep rfl rfl uneventful_nil (.inl rfl) trivial
  | settle hstage hsettled =>
    simp only [StageSpaced, hstage] at hspaced
    exact hs.keep rfl rfl uneventful_nil (.inl rfl) hspaced
  | start hstage hphase hidle => exact hs.start hstage hphase hidle
  | exit hstage hphase hidle hshutdown =>
    simp only [StageSpaced, hstage] at hspaced
    exact hs.keep rfl rfl uneventful_nil (.inl rfl) hspaced
  | revoke hstage hepisode hended hout hleading hrest =>
    refine hs.keep rfl rfl (uneventful_of_cancelled fun note hnote => ?_) (.inl rfl) trivial
    split at hnote
    · cases hnote
    · exact List.mem_singleton.mp hnote
  | dismiss hstage hepisode hended hout hleading hrest =>
    exact hs.keep rfl rfl uneventful_nil (.inl rfl) (between_of_leading hleading)
  | release hstage hout hleaving => exact hs.keep rfl rfl uneventful_nil (.inl rfl) trivial
  | abandon hstage hout hleaving =>
    exact hs.keep rfl rfl uneventful_nil (.inl rfl) (between_of_leading hleaving.2)
  | announce hstage hout hleaving => exact hs.announce hfits hstage hout hleaving

/-- Whatever an elector does with a reply keeps its diary spaced. -/
theorem Taken.spaced (h : Taken now delay reply e e' notes) (hs : e.Spaced now.instant d)
    (hdelay : e.isHoldingOff = false → e'.isHoldingOff = true → e.gap ≤ delay.nanos) :
    e'.Spaced now.instant (d.follow now.instant e e' notes) := by
  have hspaced := hs.stage
  cases h with
  | ask hstage hreply hphase hidle =>
    simp only [StageSpaced, hstage] at hspaced
    exact hs.keep rfl rfl uneventful_nil (.inr (by simp [isCompeting, hstage])) hspaced
  | win hstage hreply hgranted hphase hidle hquiet =>
    simp only [StageSpaced, hstage] at hspaced
    -- the attempt began a retry period after the last stop, so what it starts does too
    obtain ⟨hstarted, -, hstopped⟩ := hspaced
    exact hs.keep rfl rfl hquiet.uneventful (.inl rfl) fun _ =>
      hstopped.later (Nat.add_le_add_right hstarted _)
  | miss hstage hreply hdenied hphase hidle hquiet =>
    have hlong : e.gap ≤ delay.nanos := hdelay (by simp [isHoldingOff, hstage]) rfl
    exact hs.keep rfl rfl hquiet.uneventful (.inl rfl) (hs.wait hidle.2 hlong)
  | askAgain _ _ _ _ | fail _ _ _ _ | vacate _ _ _ _ =>
    exact hs.keep rfl rfl uneventful_nil (.inl rfl) trivial
  | keep hstage hreply hgranted hphase hoffice hquiet
  | lose hstage hreply hdenied hphase hoffice hquiet =>
    exact hs.keep rfl rfl hquiet.uneventful (.inl rfl) (between_of_leading hoffice.2)
  | leave hstage hreply hout hleaving =>
    exact hs.keep rfl rfl uneventful_nil (.inl rfl) (between_of_leading hleaving.2)

/-- What happens from outside does not shorten the pause between two episodes. -/
theorem Between.outside {instant : Nat} {shutdown : Bool} {f : Episode → Episode}
    (h : e.Between instant d) (hshutdown : e.shutdown = true → shutdown = true) :
    (e.outside shutdown f).Between instant d := by
  intro hleading
  have hpause := h hleading
  show if e.machine.phase = .leading then d.StoppedBefore e.gap instant
    else d = .blank ∨ e.backoff = true ∨ shutdown = true
  split
  · rename_i hphase
    rwa [if_pos hphase] at hpause
  · rename_i hphase
    rw [if_neg hphase] at hpause
    exact hpause.imp_right (Or.imp_right hshutdown)

/-- Time that passes does not shorten the pause between two episodes. -/
theorem Between.pass {instant after : Nat} (h : e.Between instant d) (hle : instant ≤ after) :
    e.Between after d := by
  intro hleading
  have hpause := h hleading
  split
  · rename_i hphase
    rw [if_pos hphase] at hpause
    exact hpause.later (Nat.add_le_add_right hle _)
  · rename_i hphase
    rwa [if_neg hphase] at hpause

/-- What happens from outside starts no attempt and no episode. -/
theorem Spaced.outside {instant : Nat} {shutdown : Bool} {f : Episode → Episode}
    (hs : e.Spaced instant d) (hshutdown : e.shutdown = true → shutdown = true)
    (hnotes : Uneventful notes) :
    (e.outside shutdown f).Spaced instant (d.follow instant e (e.outside shutdown f) notes) := by
  refine hs.keep rfl rfl hnotes (Bool.eq_false_or_eq_true e.isCompeting).symm ?_
  have hspaced := hs.stage
  have hstage : (e.outside shutdown f).stage = e.stage := rfl
  unfold StageSpaced at hspaced ⊢
  rw [hstage]
  generalize e.stage = stage at hspaced
  cases stage with
  | ready | performing _ _ => exact Between.outside hspaced hshutdown
  | _ => exact hspaced

/-- Time that passes keeps the diary spaced. -/
theorem Spaced.pass {instant after : Nat} (hs : e.Spaced instant d) (hle : instant ≤ after) :
    e.Spaced after d := by
  refine ⟨hs.attempts, hs.spells, hs.ordered, hs.tried.later (Nat.add_le_add_right hle _), ?_, ?_,
    ?_⟩
  · intro hleading
    obtain ⟨began, rest, hspells, hbegan⟩ := hs.ongoing hleading
    exact ⟨began, rest, hspells, hbegan.trans hle⟩
  · exact fun hleading => (hs.ended hleading).later (Nat.add_le_add_right hle _)
  · have hspaced := hs.stage
    unfold StageSpaced at hspaced ⊢
    generalize e.stage = stage at hspaced
    cases stage with
    | ready | performing _ _ => exact Between.pass hspaced hle
    | competing started attempt => exact ⟨hspaced.1.trans hle, hspaced.2⟩
    | _ => exact hspaced

end Elector

/-! ### Runs -/

namespace Course

variable {c c' : Course} {deed : Deed} {notes : List Note} {d : Diary}

/-- The delay that comes with a deed. -/
def Deed.delay? : Deed → Option Duration
  | .advance _ delay | .hear _ delay _ => some delay
  | _ => none

/-- A delay is drawn when the elector begins to wait before it competes. Here each one that
a deed draws is at least a retry period. -/
def DrawsLong (c c' : Course) (deed : Deed) : Prop :=
  c.elector.isHoldingOff = false → c'.elector.isHoldingOff = true →
    ∀ delay ∈ deed.delay?, c.elector.timing.retryPeriod ≤ delay

/-- Whatever happens to an elector keeps its diary spaced. -/
theorem Does.spaced (h : Does c deed c' notes) (hs : c.elector.Spaced c.now d)
    (hc : c.elector.Coherent) (hfits : c.elector.CauseFits) (hlong : DrawsLong c c' deed) :
    c'.elector.Spaced c'.now (d.follow c.now c.elector c'.elector notes) := by
  cases h with
  | cancel =>
    show c.elector.cancel.1.Spaced c.now
      (d.follow c.now c.elector c.elector.cancel.1 c.elector.cancel.2)
    rw [Elector.cancel_eq]
    refine hs.outside (fun _ => rfl) (uneventful_of_cancelled fun note hnote => ?_)
    exact Elector.eq_cancelled_of_mem_cancel hnote
  | endBody hbody => exact hs.outside id uneventful_nil
  | advance hadvance =>
    exact (hc.step hadvance).spaced hs hc hfits hadvance fun hbefore hafter =>
      hlong hbefore hafter _ rfl
  | @hear wall delay request reply hrequest =>
    have htaken : Elector.Taken ⟨c.now, wall⟩ delay reply c.elector _ _ := hc.taken hrequest
    exact htaken.spaced hs fun hbefore hafter => hlong hbefore hafter _ rfl
  | pass hle hcalm hdue =>
    -- time that passes is not taken down
    have hsame : d.follow c.now c.elector c.elector [] = d := by simp [Diary.follow]
    show c.elector.Spaced _ (d.follow c.now c.elector c.elector [])
    rw [hsame]
    exact hs.pass hle

/-- The points that a run comes to in which no delay is shorter than a retry period, and
what is taken down on the way. -/
inductive Paced : Course → Diary → Prop
  | start (client : Client) (timing : Timing) (release : Bool) (born now : Nat) (shutdown : Bool)
      (hborn : born ≤ now) : Paced (start client timing release born now shutdown) .blank
  | act {c c' : Course} {d : Diary} (h : Paced c d) (deed : Deed) (hact : c.act deed = some c')
      (hlong : DrawsLong c c' deed) :
      Paced c' (d.follow c.now c.elector c'.elector (c.noted deed))

/-- What a paced run comes to is reachable. -/
theorem Paced.reachable (h : Paced c d) : Reachable c := by
  induction h with
  | start client timing release born now shutdown hborn =>
    exact .start client timing release born now shutdown hborn
  | act _ deed hact hlong ih => exact .move ih (move_of_act hact)

/-- At every point of a paced run the attempts and the episodes in the diary are apart. -/
theorem Paced.spaced_diary (h : Paced c d) : c.elector.Spaced c.now d := by
  induction h with
  | start client timing release born now shutdown hborn =>
    refine ⟨.nil, .nil, fun spell hspell => ?_, fun began hbegan => ?_, fun hleading => ?_,
      fun _ last hlast => ?_, fun _ => .inl rfl⟩
    · cases hspell
    · cases hbegan
    · cases hleading
    · cases hlast
  | act hrun deed hact hlong ih =>
    have hreach := hrun.reachable
    exact (does_of_act hact).spaced ih hreach.coherent hreach.causeFits hlong

end Course

/-! ### Windows -/

/-- Instants that lie apart fill the span from the first to the last. -/
theorem add_length_mul_le {gap opens last : Nat} {earlier : List Nat}
    (h : (last :: earlier).Pairwise fun later earlier => earlier + gap ≤ later)
    (hopens : ∀ t ∈ last :: earlier, opens ≤ t) : opens + earlier.length * gap ≤ last := by
  induction earlier generalizing last with
  | nil => simpa using hopens
  | cons next rest ih =>
    obtain ⟨hnext, hrest⟩ := List.pairwise_cons.mp h
    have hspan := ih hrest fun t ht => hopens t (List.mem_cons_of_mem _ ht)
    have hlast := hnext next List.mem_cons_self
    rw [List.length_cons, Nat.succ_mul]
    omega

/-- A window holds one of the instants that lie apart, and one more for each gap that fits
into it, at most. -/
theorem countP_window_le {gap : Nat} (hgap : 0 < gap) {times : List Nat}
    (h : times.IsChain fun later earlier => earlier + gap ≤ later) (opens span : Nat) :
    times.countP (fun t => decide (opens ≤ t ∧ t ≤ opens + span)) ≤ 1 + span / gap := by
  have htrans : IsTrans Nat fun later earlier => earlier + gap ≤ later :=
    ⟨fun a b c hab hbc => by omega⟩
  have hpairwise := (List.isChain_iff_pairwise.mp h).filter
    fun t => decide (opens ≤ t ∧ t ≤ opens + span)
  have hinside : ∀ t ∈ times.filter fun t => decide (opens ≤ t ∧ t ≤ opens + span),
      opens ≤ t ∧ t ≤ opens + span := fun t ht => by
    simpa using (List.mem_filter.mp ht).2
  rw [List.countP_eq_length_filter]
  -- the times in the window are a chain with the same gaps, and fit between its first and its last
  cases hwindow : times.filter fun t => decide (opens ≤ t ∧ t ≤ opens + span) with
  | nil => exact Nat.zero_le _
  | cons last earlier =>
    rw [hwindow] at hpairwise hinside
    have hspan := add_length_mul_le hpairwise fun t ht => (hinside t ht).1
    have hlast := (hinside last List.mem_cons_self).2
    have hfits : earlier.length ≤ span / gap := (Nat.le_div_iff_mul_le hgap).mpr (by omega)
    rw [List.length_cons]
    omega

/-- The starts of episodes lie apart when each lies apart from the announcement before. -/
theorem isChain_started {gap : Nat} {spells : List Spell}
    (h : spells.IsChain fun later earlier => ∃ stop ∈ earlier.stopped, stop + gap ≤ later.started)
    (hordered : ∀ spell ∈ spells, ∀ stop ∈ spell.stopped, spell.started ≤ stop) :
    (spells.map Spell.started).IsChain fun later earlier => earlier + gap ≤ later := by
  induction spells with
  | nil => exact .nil
  | cons last rest ih =>
    obtain ⟨hlast, hrest⟩ := List.isChain_cons.mp h
    refine List.isChain_cons.mpr ⟨fun started hstarted => ?_,
      ih hrest fun spell hspell => hordered spell (List.mem_cons_of_mem _ hspell)⟩
    cases rest with
    | nil => cases hstarted
    | cons before rest =>
      cases hstarted
      obtain ⟨stop, hstop, hapart⟩ := hlast before rfl
      have hle := hordered before (List.mem_cons_of_mem _ List.mem_cons_self) stop hstop
      omega

namespace Course

variable {c : Course} {d : Diary}

/-- When no delay that is drawn is shorter than a retry period, any two attempts to take
the lease begin a retry period apart, each episode but the first starts a retry period
after the end of the one before it was announced, and a window holds one start and one
more for each retry period that fits into it, at most. -/
theorem Paced.attempts_apart (h : Paced c d) {lease renew retry : Duration}
    (ht : Timing.check lease renew retry = .ok c.elector.timing) :
    (d.attempts.IsChain fun later earlier => Clock.after earlier retry ≤ later)
      ∧ (d.spells.IsChain fun later earlier => ∃ stop ∈ earlier.stopped,
        Clock.after stop retry ≤ later.started)
      ∧ ∀ opens span, d.spells.countP (fun spell =>
        decide (opens ≤ spell.started ∧ spell.started ≤ opens + span))
          ≤ 1 + span / retry.nanos := by
  have hs := h.spaced_diary
  obtain ⟨htiming, -, -, hretry, -⟩ := Timing.check_ok ht
  have hgap : c.elector.gap = retry.nanos := by rw [Elector.gap, htiming]
  have hattempts := hs.attempts
  have hspells := hs.spells
  rw [hgap] at hattempts hspells
  refine ⟨hattempts, hspells, fun opens span => ?_⟩
  have hwindow := countP_window_le hretry (isChain_started hspells hs.ordered) opens span
  rwa [List.countP_map] at hwindow

/-- Whether no delay that a deed draws is shorter than a retry period. -/
def drawsLong (c c' : Course) (deed : Deed) : Bool :=
  c.elector.isHoldingOff || !c'.elector.isHoldingOff
    || deed.delay?.all fun delay => decide (c.elector.timing.retryPeriod ≤ delay)

/-- Lets one thing happen after another, and takes it down, as long as no delay is short. -/
def takeDown (c : Course) (d : Diary) : List Deed → Option (Course × Diary)
  | [] => some (c, d)
  | deed :: rest => (c.act deed).bind fun next =>
    if drawsLong c next deed then
      next.takeDown (d.follow c.now c.elector next.elector (c.noted deed)) rest
    else none

/-- Taking down deeds one after the other goes on with a paced run. -/
theorem Paced.takeDown {c' : Course} {d' : Diary} {deeds : List Deed} (h : Paced c d)
    (hplay : c.takeDown d deeds = some (c', d')) : Paced c' d' := by
  induction deeds generalizing c d with
  | nil =>
    cases hplay
    exact h
  | cons deed rest ih =>
    obtain ⟨next, hact, hrest⟩ := Option.bind_eq_some_iff.mp hplay
    split at hrest
    · rename_i hdraws
      refine ih (h.act deed hact fun hbefore hafter delay hdelay => ?_) hrest
      simp only [drawsLong, hbefore, hafter] at hdraws
      simpa [Option.mem_def.mp hdelay] using hdraws
    · cases hrest

/-- The body of the first episode returns at once. Giving the lock up takes too long, then
the elector waits for a retry period, competes again and starts its second episode. -/
def relapse : List Deed :=
  quickWin ++ .endBody :: alone 3 ++ .pass 5000000000 :: alone 5
    ++ [.advance 0 (.ofSecs 5), .pass 10000000000, .advance 0 ⟨0⟩, .hear 0 ⟨0⟩ (.found none),
      .hear 0 ⟨0⟩ (.written 2), .advance 0 ⟨0⟩]

/-- Two episodes, the second one a retry period after the end of the first was announced. -/
theorem attempts_apart_relapse : ∃ c d, (novice brisk).takeDown .blank relapse = some (c, d)
    ∧ d = ⟨[10000000000, 0], [⟨10000000000, none⟩, ⟨0, some 5000000000⟩]⟩ ∧ Paced c d
    ∧ Timing.check (.ofSecs 15) (.ofSecs 10) (.ofSecs 5) = .ok c.elector.timing
    ∧ (d.attempts.IsChain fun later earlier => Clock.after earlier (.ofSecs 5) ≤ later)
    ∧ d.spells.countP (fun spell =>
        decide (0 ≤ spell.started ∧ spell.started ≤ 0 + 10000000000))
          ≤ 1 + 10000000000 / (Duration.ofSecs 5).nanos := by
  obtain ⟨c, d, hplay, hdiary, htiming⟩ : ∃ c d,
      (novice brisk).takeDown .blank relapse = some (c, d)
        ∧ d = ⟨[10000000000, 0], [⟨10000000000, none⟩, ⟨0, some 5000000000⟩]⟩
        ∧ c.elector.timing = brisk := ⟨_, _, rfl, rfl, rfl⟩
  have hpaced : Paced c d :=
    Paced.takeDown (.start _ _ _ 0 0 _ (Nat.le_refl 0)) hplay
  have hcheck : Timing.check (.ofSecs 15) (.ofSecs 10) (.ofSecs 5) = .ok c.elector.timing := by
    rw [htiming]
    exact check_brisk
  obtain ⟨hattempts, -, hwindow⟩ := hpaced.attempts_apart hcheck
  exact ⟨c, d, hplay, hdiary, hpaced, hcheck, hattempts, hwindow 0 10000000000⟩

end Course

end Tenure.Leader
