import Tenure.Proofs.Leader.Arena
import Tenure.Proofs.Leader.Blocks
import Tenure.Simulation.Election

/-!
# `Tenure.Proofs.Simulation.Election`: elections are arenas

An election runs the candidates of an arena, the first one that can take a step
before the others, with bodies that follow plans. `Election.Reached` holds of what
an election comes to as long as nobody else writes. Each of its steps is one of
the arena, or only adds to a log.

* `Election.Reached.plays`: whatever an election comes to, an arena comes to with
  the same candidates, the same store and the same bodies running.
-/

set_option autoImplicit false

namespace Tenure.Leader

open Store

namespace Chronicle

variable {c : Chronicle} {now : Nat} {before after : Elector} {notes : List Note}

/-- A chronicle marks a start for each one that the elector announces. -/
theorem count_started_marksOf :
    (marksOf before after notes).count .started = notes.count .started := by
  have hnotes : (notes.filterMap Mark.ofNote?).count .started = notes.count .started := by
    induction notes with
    | nil => rfl
    | cons note rest ih => cases note <;> simp [Mark.ofNote?, List.filterMap_cons, ih]
  have hvacating : (if after.isVacating && !before.isVacating then [Mark.vacating] else []).count
      .started = 0 := by
    split <;> simp
  rw [marksOf, List.count_append, hnotes, hvacating, Nat.add_zero]

/-- The elector itself marks no end of a body. -/
theorem count_ended_marksOf : (marksOf before after notes).count .ended = 0 := by
  have hnotes : (notes.filterMap Mark.ofNote?).count .ended = 0 := by
    induction notes with
    | nil => rfl
    | cons note rest ih => cases note <;> simp [Mark.ofNote?, List.filterMap_cons, ih]
  have hvacating : (if after.isVacating && !before.isVacating then [Mark.vacating] else []).count
      .ended = 0 := by
    split <;> simp
  rw [marksOf, List.count_append, hnotes, hvacating]

/-- A body runs after what an elector has done when it was started or ran before. -/
theorem isBodyRunning_follow
    (h : Note.started ∈ notes → c.marks.count .ended ≤ c.marks.count .started) :
    (c.follow now before after notes).isBodyRunning
      = (c.isBodyRunning || decide (Note.started ∈ notes)) := by
  simp only [isBodyRunning, follow, List.count_append, count_started_marksOf, count_ended_marksOf,
    Nat.add_zero, ← Bool.decide_or, decide_eq_decide, ← List.count_pos_iff] at h ⊢
  omega

/-- Taking a reply down marks nothing of an episode. -/
@[simp] theorem marks_hear (reply : Reply) : (c.hear now before reply).marks = c.marks := by
  unfold hear
  split <;> rfl

end Chronicle

/-- As many bodies have started as have ended, or one more. -/
theorem Course.Reachable.ended_le_started {c : Course} (h : c.Reachable) :
    c.chronicle.marks.count .ended ≤ c.chronicle.marks.count .started
      ∧ c.chronicle.marks.count .started ≤ c.chronicle.marks.count .ended + 1 := by
  obtain ⟨blocks, last, hserial⟩ := h.serial
  have hcount := count_flatten_blocks hserial.complete
  have hlast : last.count .ended ≤ last.count .started
      ∧ last.count .started ≤ last.count .ended + 1 := by
    cases hserial.unfinished <;> decide
  rw [hserial.marks_eq, List.count_append, List.count_append]
  omega

end Tenure.Leader

namespace Tenure.Simulation

open Leader Store

/-- The earliest of some instants comes before each of them. -/
theorem exists_earliest_le {instants : List (Option Nat)} {instant : Nat}
    (h : some instant ∈ instants) : ∃ first, earliest instants = some first ∧ first ≤ instant := by
  have hfold : ∀ (rest : List (Option Nat)) (sofar : Option Nat),
      (∃ first, sofar = some first ∧ first ≤ instant) ∨ some instant ∈ rest →
        ∃ first, rest.foldl earlier sofar = some first ∧ first ≤ instant := by
    -- by induction on what is left, for whatever was the earliest so far
    intro rest
    induction rest with
    | nil =>
      intro sofar hsofar
      simpa using hsofar
    | cons head rest ih =>
      intro sofar hsofar
      refine ih (earlier sofar head) ?_
      rcases hsofar with ⟨first, rfl, hle⟩ | hmem
      · cases head with
        | none => exact .inl ⟨first, rfl, hle⟩
        | some other => exact .inl ⟨min first other, rfl, Nat.le_trans (Nat.min_le_left _ _) hle⟩
      · rcases List.mem_cons.mp hmem with rfl | hmem
        · cases sofar with
          | none => exact .inl ⟨instant, rfl, Nat.le_refl _⟩
          | some first => exact .inl ⟨min first instant, rfl, Nat.min_le_right _ _⟩
        · exact .inr hmem
  exact hfold instants none (.inr h)

/-- What is written down about a candidate fits an entrant: it is the same
candidate, and its body runs when the task of the entrant does. -/
structure Entrant.Mirrors (e : Entrant) (s : Seat) : Prop where
  candidate_eq : s.candidate = e.candidate
  running_eq : s.running = e.running
  body_eq : s.chronicle.isBodyRunning = e.body.any fun body => !body.isEnded

namespace Entrant

variable {e : Entrant} {s : Seat}

/-- What an entrant takes down changes its log, and a body that starts. -/
theorem foldl_note (now : Nat) (notes : List Note) (e : Entrant) (metrics : Metrics) :
    (notes.foldl (note now) (e, metrics)).1.candidate = e.candidate
      ∧ (notes.foldl (note now) (e, metrics)).1.running = e.running
      ∧ (notes.foldl (note now) (e, metrics)).1.plan = e.plan
      ∧ (notes.foldl (note now) (e, metrics)).1.body
        = if .started ∈ notes then some (.new e.plan) else e.body := by
  induction notes generalizing e metrics with
  | nil => exact ⟨rfl, rfl, rfl, by simp⟩
  | cons head rest ih =>
    obtain ⟨hcandidate, hrunning, hplan, hbody⟩ :=
      ih (note now (e, metrics) head).1 (note now (e, metrics) head).2
    rw [List.foldl_cons]
    refine ⟨hcandidate.trans ?_, hrunning.trans ?_, hplan.trans ?_, hbody.trans ?_⟩
    · cases head <;> rfl
    · cases head <;> rfl
    · cases head <;> rfl
    · cases head <;> simp [note, write]

/-- A body that takes a step has not ended; it ends exactly when it says so. -/
theorem advance_signs {body after : Task Unit} {now : Nat} {cancelled : Bool}
    {signs : List Task.Sign} (h : body.advance now cancelled = some (after, signs)) :
    body.isEnded = false ∧ (after.isEnded = false ∧ (∀ sign ∈ signs, ∀ c, sign ≠ .ended c)
      ∨ after.isEnded = true ∧ ∃ c, signs = [.ended c]) := by
  have hended : body.isEnded = false := by
    cases hcase : body.isEnded with
    | false => rfl
    | true => simp [body.advance_ended now cancelled hcase] at h
  refine ⟨hended, ?_⟩
  -- only the step of a task at work can end it, and that one shows nothing else
  unfold Task.advance at h
  split at h
  · cases h
    refine .inl ⟨?_, by simp⟩
    unfold Task.start
    split <;> rfl
  · split at h
    · cases h
      exact .inl ⟨rfl, by simp⟩
    · split at h
      · cases h
        exact .inl ⟨rfl, by simp⟩
      · cases h
  · split at h
    · cases h
      exact .inr ⟨rfl, _, rfl⟩
    · cases h
  · cases h

/-- Signs other than the last one only add to the log. -/
theorem foldl_sign (now : Nat) {signs : List Task.Sign} (h : ∀ sign ∈ signs, ∀ c, sign ≠ .ended c)
    (e : Entrant) : (signs.foldl (sign now) e).candidate = e.candidate
      ∧ (signs.foldl (sign now) e).running = e.running
      ∧ (signs.foldl (sign now) e).body = e.body := by
  induction signs generalizing e with
  | nil => exact ⟨rfl, rfl, rfl⟩
  | cons head rest ih =>
    obtain ⟨hcandidate, hrunning, hbody⟩ :=
      ih (fun sign hmem => h sign (List.mem_cons_of_mem _ hmem)) (sign now e head)
    rw [List.foldl_cons]
    cases head with
    | begun | noticed => exact ⟨hcandidate, hrunning, hbody⟩
    | ended c => exact absurd rfl (h (.ended c) List.mem_cons_self c)

/-- The last sign of a body is told to the elector. -/
theorem sign_ended (now : Nat) (c : Bool) (e : Entrant) :
    (sign now e (.ended c)).candidate
        = { e.candidate with elector := e.candidate.elector.endBody }
      ∧ (sign now e (.ended c)).running = e.running
      ∧ (sign now e (.ended c)).body = e.body := by
  simp only [sign]
  split <;> exact ⟨rfl, rfl, rfl⟩

/-- A step of an entrant: its candidate goes on, its body ends, or its log grows. -/
inductive Stepped (e : Entrant) (store : Shared) (now : Moment) : Entrant → Shared → Prop
  | candidate {e' : Entrant} {store' : Shared} {notes : List Note}
      (hadvance : e.candidate.advance store now e.candidate.elector.timing.retryPeriod
        = some (e'.candidate, store', notes)) (hrunning : e'.running = e.running)
      (hbody : e'.body = if .started ∈ notes then some (.new e.plan) else e.body) :
      Stepped e store now e' store'
  | ended {e' : Entrant} {body after : Task Unit}
      (hcandidate : e'.candidate = { e.candidate with elector := e.candidate.elector.endBody })
      (hrunning : e'.running = e.running) (hbefore : e.body = some body)
      (hruns : body.isEnded = false) (hbody : e'.body = some after)
      (hended : after.isEnded = true) : Stepped e store now e' store
  | logged {e' : Entrant} (hcandidate : e'.candidate = e.candidate)
      (hrunning : e'.running = e.running)
      (hbody : e'.body.any (fun body => !body.isEnded) = e.body.any fun body => !body.isEnded) :
      Stepped e store now e' store

/-- A step of an entrant is one of a running one, and is one of the kinds listed. -/
theorem stepped {e e' : Entrant} {store store' : Shared} {metrics metrics' : Metrics} {now : Moment}
    (h : e.step store metrics now = some (e', store', metrics')) :
    e.running = true ∧ Stepped e store now e' store' := by
  unfold step at h
  split at h
  · cases h
  · rename_i hrunning
    refine ⟨by simpa using hrunning, ?_⟩
    split at h
    · -- the candidate goes first; the body has its turn when that has nothing to do
      rename_i candidate store'' notes hadvance
      obtain ⟨hcandidate, hrunning', -, hbody⟩ :=
        foldl_note now.instant notes { e with candidate := candidate } metrics
      cases h
      refine .candidate ?_ hrunning' hbody
      rw [hadvance, hcandidate]
    · obtain ⟨e'', hbody, heq⟩ := Option.map_eq_some_iff.mp h
      cases heq
      unfold stepBody at hbody
      obtain ⟨body, hbefore, hbody⟩ := Option.bind_eq_some_iff.mp hbody
      obtain ⟨⟨after, signs⟩, hadvance, hbody⟩ := Option.bind_eq_some_iff.mp hbody
      cases hbody
      obtain ⟨hruns, ⟨hafter, hsigns⟩ | ⟨hafter, c, rfl⟩⟩ := advance_signs hadvance
      · obtain ⟨hcandidate, hrunning', hbody⟩ :=
          foldl_sign now.instant hsigns { e with body := some after }
        refine .logged hcandidate hrunning' ?_
        simp [hbody, hbefore, hruns, hafter]
      · have hsign := sign_ended now.instant c { e with body := some after }
        exact .ended hsign.1 hsign.2.1 hbefore hruns hsign.2.2 hafter

/-- When an entrant can take no step, its candidate can do nothing. -/
theorem advance_none {store : Shared} {metrics : Metrics} {now : Moment}
    (h : e.step store metrics now = none) (hrunning : e.running = true) :
    e.candidate.advance store now e.candidate.elector.timing.retryPeriod = none := by
  unfold step at h
  rw [hrunning] at h
  simp only [Bool.not_true, Bool.false_eq_true, if_false] at h
  split at h
  · cases h
  · assumption

/-- The body of an entrant runs after a step of its candidate when one was started
or ran before. -/
theorem Mirrors.body_follow (h : e.Mirrors s) {now : Nat} {after : Candidate} {notes : List Note}
    {reply : Option Reply}
    (hcount : s.chronicle.marks.count .ended ≤ s.chronicle.marks.count .started) :
    (s.follow now after notes reply).chronicle.isBodyRunning
      = (if .started ∈ notes then some (Task.new e.plan) else e.body).any
        fun body => !body.isEnded := by
  have hfollow : ∀ c : Chronicle, c.marks = s.chronicle.marks →
      (c.follow now s.candidate.elector after.elector notes).isBodyRunning
        = (e.body.any (fun body => !body.isEnded) || decide (Note.started ∈ notes)) := by
    intro c hmarks
    rw [Chronicle.isBodyRunning_follow fun _ => hmarks ▸ hcount, ← h.body_eq]
    simp only [Chronicle.isBodyRunning, hmarks]
  -- what a reply adds to the chronicle starts and ends no body
  have hseat : (s.follow now after notes reply).chronicle.isBodyRunning
      = (e.body.any (fun body => !body.isEnded) || decide (Note.started ∈ notes)) := by
    cases reply with
    | none => exact hfollow _ rfl
    | some reply => exact hfollow _ (Chronicle.marks_hear reply)
  rw [hseat]
  split
  · rename_i hstarted
    simp [hstarted, Task.new, Task.isEnded]
  · rename_i hquiet
    simp [hquiet]

/-! ### What happens to an entrant from outside -/

/-- A fresh entrant that starts is mirrored by its seat started. -/
theorem Mirrors.start (h : e.Mirrors s) :
    Mirrors { e with running := true } { s with running := true } :=
  ⟨h.candidate_eq, rfl, h.body_eq⟩

/-- An entrant is mirrored also when both are told to shut down. -/
theorem Mirrors.cancel (h : e.Mirrors s) (now : Nat) :
    Mirrors { e with candidate := { e.candidate with elector := e.candidate.elector.cancel.1 } }
      (s.cancel now) := by
  refine ⟨?_, h.running_eq, ?_⟩
  · simp only [Seat.cancel, Seat.follow, h.candidate_eq]
  · have hquiet : Note.started ∉ s.candidate.elector.cancel.2 := by
      unfold Elector.cancel
      split
      · simp
      · split <;> simp
    simp only [Seat.cancel, Seat.follow]
    rw [Chronicle.isBodyRunning_follow fun hmem => absurd hmem hquiet, h.body_eq]
    simp [hquiet]

/-- An entrant is mirrored also when both links change alike. -/
theorem Mirrors.relink (h : e.Mirrors s) (f : Link → Link) :
    Mirrors { e with candidate := { e.candidate with link := f e.candidate.link } } (s.relink f) :=
  ⟨by simp only [Seat.relink, h.candidate_eq], h.running_eq, h.body_eq⟩

end Entrant

namespace Election

variable {n : Nat} {w : Election} {a : Arena (Fin n)}

/-- An arena plays an election: the store and the clock are the same, and so are
the candidates. -/
structure Plays (w : Election) (a : Arena (Fin n)) : Prop where
  store_eq : a.store = w.store
  now_eq : a.now = w.now
  length_eq : w.entrants.length = n
  seats : ∀ (i : Fin n) (e : Entrant), w.entrants[i.val]? = some e → e.Mirrors (a.seats i)

/-- One entrant changes, and the store perhaps. -/
theorem Plays.put (h : w.Plays a) (w' : Election) {i : Fin n} {e' : Entrant} {seat : Seat}
    (hnow : w'.now = w.now) (hlength : w'.entrants.length = w.entrants.length)
    (hself : w'.entrants[i.val]? = some e')
    (hothers : ∀ j, j ≠ i.val → w'.entrants[j]? = w.entrants[j]?) (hmirrors : e'.Mirrors seat) :
    w'.Plays { a.put i seat with store := w'.store } := by
  refine ⟨rfl, h.now_eq.trans hnow.symm, hlength.trans h.length_eq, fun j e hj => ?_⟩
  by_cases hij : j = i
  · subst hij
    rw [hself] at hj
    cases hj
    show e'.Mirrors ((a.put j seat).seats j)
    rw [Arena.put_self]
    exact hmirrors
  · show e.Mirrors ((a.put i seat).seats j)
    rw [Arena.put_other a seat hij]
    rw [hothers j.val fun heq => hij (Fin.ext heq)] at hj
    exact h.seats j e hj

/-- Something is done to one entrant from outside. -/
theorem Plays.change (h : w.Plays a) (i : Fin n) {f : Entrant → Entrant} {seat : Seat}
    (hmirrors : ∀ e, e.Mirrors (a.seats i) → (f e).Mirrors seat) :
    (w.change i.val f).Plays (a.put i seat) := by
  have hlt : i.val < w.entrants.length := h.length_eq.symm ▸ i.isLt
  have hget : w.entrants[i.val]? = some w.entrants[i.val] := List.getElem?_eq_getElem hlt
  have hself : (w.change i.val f).entrants[i.val]? = some (f w.entrants[i.val]) := by
    simp [Election.change, hget]
  have hothers : ∀ j, j ≠ i.val → (w.change i.val f).entrants[j]? = w.entrants[j]? := by
    intro j hj
    simp [Election.change, Ne.symm hj]
  have hlength : (w.change i.val f).entrants.length = w.entrants.length := by
    simp [Election.change]
  have hplays := h.put (w.change i.val f) rfl hlength hself hothers (hmirrors _ (h.seats i _ hget))
  have hstore : (w.change i.val f).store = a.store := h.store_eq.symm
  rw [hstore] at hplays
  exact hplays

/-- The first entrant that can take a step takes it, and the others stay. -/
theorem stepFirst_some {store store' : Shared} {metrics metrics' : Metrics} {now : Moment}
    {entrants entrants' : List Entrant}
    (h : stepFirst store metrics now entrants = some (entrants', store', metrics')) :
    ∃ i e e', entrants[i]? = some e ∧ e.step store metrics now = some (e', store', metrics')
      ∧ entrants' = entrants.set i e' := by
  induction entrants generalizing entrants' with
  | nil => cases h
  | cons first rest ih =>
    unfold stepFirst at h
    split at h
    · rename_i e' store'' metrics'' hstep
      cases h
      exact ⟨0, first, e', rfl, hstep, rfl⟩
    · obtain ⟨⟨rest', store'', metrics''⟩, hrest, heq⟩ := Option.map_eq_some_iff.mp h
      cases heq
      obtain ⟨i, e, e', hget, hstep, hset⟩ := ih hrest
      exact ⟨i + 1, e, e', hget, hstep, by rw [hset, List.set_cons_succ]⟩

/-- When the first step is none, no entrant has one. -/
theorem stepFirst_none {store : Shared} {metrics : Metrics} {now : Moment}
    {entrants : List Entrant} (h : stepFirst store metrics now entrants = none) :
    ∀ e ∈ entrants, e.step store metrics now = none := by
  induction entrants with
  | nil =>
    intro e hmem
    cases hmem
  | cons first rest ih =>
    intro e hmem
    unfold stepFirst at h
    split at h
    · cases h
    · rename_i hfirst
      rcases List.mem_cons.mp hmem with rfl | hmem
      · exact hfirst
      · exact ih (Option.map_eq_none_iff.mp h) e hmem

/-- A step of an election is one of the arena, or only adds to a log. -/
theorem Plays.step {config : ElectionConfig (Fin n)} (h : w.Plays a) (hreach : a.Reachable config)
    {w' : Election} (hstep : World.step w = some w') :
    ∃ a' : Arena (Fin n), a'.Reachable config ∧ w'.Plays a' := by
  obtain ⟨⟨entrants, store, metrics⟩, hfirst, rfl⟩ := Option.map_eq_some_iff.mp hstep
  obtain ⟨k, e, e', hget, hentrant, rfl⟩ := stepFirst_some hfirst
  have hlt : k < n := by
    rw [← h.length_eq]
    exact (List.getElem?_eq_some_iff.mp hget).1
  obtain ⟨i, rfl⟩ : ∃ i : Fin n, i.val = k := ⟨⟨k, hlt⟩, rfl⟩
  have hmirrors := h.seats i e hget
  obtain ⟨hrunning, hstepped⟩ := Entrant.stepped hentrant
  have hrunning : (a.seats i).running = true := hmirrors.running_eq.trans hrunning
  have hcourse := hreach.course hrunning
  -- whatever the seat becomes, the others are the same
  have hput : ∀ {seat : Seat}, e'.Mirrors seat →
      Plays { w with entrants := w.entrants.set i e', store := store, metrics := metrics }
        { a.put i seat with store := store } := by
    intro seat hseat
    refine h.put { w with entrants := w.entrants.set i e', store := store, metrics := metrics } rfl
      List.length_set ?_ ?_ hseat
    · simp [h.length_eq]
    · intro j hj
      simp [Ne.symm hj]
  -- only a step of a candidate can change the store
  have hkeep : ∀ seat, ({ a.put i seat with store := w.store } : Arena (Fin n))
      = a.put i seat := by
    intro seat
    rw [← h.store_eq]
    rfl
  obtain ⟨hmost, hleast⟩ := hcourse.ended_le_started
  cases hstepped with
  | @candidate _ notes hadvance hsame hbody =>
    have hadvance : (a.seats i).candidate.advance a.store ⟨a.now, w.moment.wall⟩
        e.candidate.elector.timing.retryPeriod = some (e'.candidate, store, notes) := by
      rw [hmirrors.candidate_eq, h.store_eq, h.now_eq]
      exact hadvance
    refine ⟨_, hreach.move (.advance a i _ _ _ _ _ hrunning hadvance), hput ⟨rfl, ?_, ?_⟩⟩
    · exact hmirrors.running_eq.trans hsame.symm
    · exact (hmirrors.body_follow hmost).trans (by rw [hbody])
  | @ended body after hcandidate hsame hbefore hruns hbody hended =>
    have hbodyRuns : (a.seats i).chronicle.isBodyRunning = true := by
      rw [hmirrors.body_eq, hbefore]
      simp [hruns]
    have hends : (a.seats i).endBody.chronicle.isBodyRunning = false := by
      have hleast : (a.seats i).chronicle.marks.count .started
          ≤ (a.seats i).chronicle.marks.count .ended + 1 := hleast
      simpa [Seat.endBody, Chronicle.endBody, Chronicle.isBodyRunning] using hleast
    refine ⟨_, hreach.move (.endBody a i hbodyRuns), ?_⟩
    have hseat : e'.Mirrors (a.seats i).endBody := by
      refine ⟨?_, hmirrors.running_eq.trans hsame.symm, ?_⟩
      · simp only [Seat.endBody, hmirrors.candidate_eq, hcandidate]
      · rw [hends, hbody]
        simp [hended]
    have hplays := hput hseat
    rwa [hkeep] at hplays
  | logged hcandidate hsame hbody =>
    refine ⟨a, hreach, ?_⟩
    have hseat : e'.Mirrors (a.seats i) := ⟨hmirrors.candidate_eq.trans hcandidate.symm,
      hmirrors.running_eq.trans hsame.symm, hmirrors.body_eq.trans hbody.symm⟩
    have hplays := hput hseat
    rwa [hkeep, a.put_seats i] at hplays

/-- Time passes in an arena as it does in the election. -/
theorem Plays.jump {config : ElectionConfig (Fin n)} (h : w.Plays a) (hreach : a.Reachable config)
    {t : Nat} (hle : w.now ≤ t) (hcalm : World.step w = none)
    (hdue : ∀ due ∈ World.due w, t ≤ Clock.ring due) :
    ∃ a' : Arena (Fin n), a'.Reachable config ∧ Plays (World.moveTo w t) a' := by
  -- each seat of the arena has its entrant in the list
  have hget : ∀ i : Fin n, ∃ e, w.entrants[i.val]? = some e ∧ e ∈ w.entrants
      ∧ e.Mirrors (a.seats i) := by
    intro i
    have hlt : i.val < w.entrants.length := h.length_eq.symm ▸ i.isLt
    exact ⟨w.entrants[i.val], List.getElem?_eq_getElem hlt, List.getElem_mem hlt,
      h.seats i _ (List.getElem?_eq_getElem hlt)⟩
  have hnone := stepFirst_none (Option.map_eq_none_iff.mp hcalm)
  refine ⟨{ a with now := t }, hreach.move (.pass a t w.moment.wall
    (fun i => (a.seats i).candidate.elector.timing.retryPeriod) ?_ ?_ ?_), ?_⟩
  · rw [h.now_eq]
    exact hle
  · intro i hrunning
    obtain ⟨e, -, hmem, hmirrors⟩ := hget i
    rw [hmirrors.candidate_eq, h.store_eq, h.now_eq]
    exact Entrant.advance_none (hnone e hmem) (hmirrors.running_eq.symm.trans hrunning)
  · intro i hrunning timer htimer due hdue'
    obtain ⟨e, -, hmem, hmirrors⟩ := hget i
    rw [hmirrors.candidate_eq] at htimer
    have hmem' : some due ∈ w.entrants.flatMap Entrant.timers := by
      refine List.mem_flatMap.mpr ⟨e, hmem, ?_⟩
      rw [Entrant.timers, if_pos (hmirrors.running_eq.symm.trans hrunning)]
      exact List.mem_append_left _ (Option.mem_def.mp hdue' ▸ htimer)
    -- the election jumps to the earliest of all timers, so past none of a candidate's
    obtain ⟨first, hfirst, hle⟩ := exists_earliest_le hmem'
    exact Nat.le_trans (hdue first hfirst) (Clock.ring_mono hle)
  · exact ⟨h.store_eq, rfl, h.length_eq, h.seats⟩

/-- What an election comes to as long as nobody but its candidates writes. -/
inductive Reached (config : ElectionConfig (Fin n)) (plans : Fin n → Plan Unit) : Election → Prop
  /-- The candidates are made, at a store in memory with any records. -/
  | new (records : Memory) (files : FileTree) (metrics : Metrics) (now epoch : Nat) :
      Reached config plans
        { store := ⟨.memory records, files⟩
          entrants := List.ofFn fun i =>
            .new (.new config.key (config.identity i) config.timing.lease) config.timing
              (config.releases i) (plans i)
          metrics := metrics
          now := now
          epoch := epoch }
  | start {w : Election} (h : Reached config plans w) (i : Fin n) : Reached config plans (w.start i)
  | cancel {w : Election} (h : Reached config plans w) (i : Fin n) :
      Reached config plans (w.cancel i)
  | route {w : Election} (h : Reached config plans w) (i : Fin n) (traffic : Traffic) :
      Reached config plans (w.changeLink i (·.route traffic))
  | fault {w : Election} (h : Reached config plans w) (i : Fin n) (call : Call) (error : Error) :
      Reached config plans (w.changeLink i (·.expect ⟨call, .fails error⟩))
  /-- The first entrant that can take a step takes it. -/
  | step {w w' : Election} (h : Reached config plans w) (hstep : World.step w = some w') :
      Reached config plans w'
  /-- The clock jumps, to the next ring of a timer at most. -/
  | jump {w : Election} (h : Reached config plans w) (t : Nat) (hle : w.now ≤ t)
      (hcalm : World.step w = none) (hdue : ∀ due ∈ World.due w, t ≤ Clock.ring due) :
      Reached config plans (World.moveTo w t)

/-- Whatever an election comes to, an arena comes to with the same candidates, the
same store and the same bodies running. -/
theorem Reached.plays {config : ElectionConfig (Fin n)} {plans : Fin n → Plan Unit}
    (h : Reached config plans w) : ∃ a : Arena (Fin n), a.Reachable config ∧ w.Plays a := by
  induction h with
  | new records files metrics now epoch =>
    refine ⟨_, .start (fun _ => 0) records files now (fun _ => Nat.zero_le now), rfl, rfl,
      List.length_ofFn, fun i e hget => ?_⟩
    have he := (List.getElem?_eq_some_iff.mp hget).2
    rw [List.getElem_ofFn] at he
    rw [← he]
    exact ⟨rfl, rfl, rfl⟩
  | start _ i ih =>
    obtain ⟨a, hreach, hplays⟩ := ih
    exact ⟨_, hreach.move (.start a i), hplays.change i fun e he => he.start⟩
  | cancel _ i ih =>
    obtain ⟨a, hreach, hplays⟩ := ih
    exact ⟨_, hreach.move (.cancel a i), hplays.change i fun e he => he.cancel a.now⟩
  | route _ i traffic ih =>
    obtain ⟨a, hreach, hplays⟩ := ih
    exact ⟨_, hreach.move (.route a i traffic),
      hplays.change i fun e he => he.relink (·.route traffic)⟩
  | fault _ i call error ih =>
    obtain ⟨a, hreach, hplays⟩ := ih
    exact ⟨_, hreach.move (.fault a i call error),
      hplays.change i fun e he => he.relink (·.expect ⟨call, .fails error⟩)⟩
  -- the election adds to an arena only what it writes down and when it jumps
  | step _ hstep ih =>
    obtain ⟨a, hreach, hplays⟩ := ih
    exact hplays.step hreach hstep
  | jump _ t hle hcalm hdue ih =>
    obtain ⟨a, hreach, hplays⟩ := ih
    exact hplays.jump hreach hle hcalm hdue

end Election

end Tenure.Simulation
