/-
# Dagq.Stats.LandPhases -- where the time of a landing goes.

The clock looks at times only when a phase ends, and the time between two events belongs to the phase
the run is in between them.  So the phases add up to the whole wait, to the millisecond; each is cut to
whole seconds on its own, though, and the wait once.
-/
import Dagq.Domain.LandClock
import Dagq.Lib.Sums

namespace Dagq.LandClock

open Lib

variable {control : Control} {clock : Clock} {event : RunEvent} {events : List RunEvent}
  {now since : Int} {p : Phase}

/-! ## The phase a run is in -/

/-- What an event makes of the phase and the asks. -/
def Control.step (control : Control) (event : RunEvent) : Control :=
  match control.next event with
  | (none, control) => control
  | (some phase, control) => { control.settle event phase with phase }

theorem Control.openAsk_phase (control : Control) (event : RunEvent) :
    (control.openAsk event).2.phase = control.phase := by
  unfold Control.openAsk
  split <;> rfl

theorem Control.answerAsk_phase (control : Control) (event : RunEvent) :
    (control.answerAsk event).2.phase = control.phase := by
  unfold Control.answerAsk
  dsimp only
  split
  · rfl
  · split <;> rfl

/-- What comes next is said without entering it. -/
theorem Control.next_phase (control : Control) (event : RunEvent) :
    (control.next event).2.phase = control.phase := by
  unfold Control.next
  split
  · rfl
  · cases event.kind with
    | askOpened => exact control.openAsk_phase event
    | askAnswered => exact control.answerAsk_phase event
    | _ => rfl

theorem Control.settle_phase (control : Control) (event : RunEvent) (phase : Phase) :
    (control.settle event phase).phase = control.phase := by
  unfold Control.settle
  split <;> rfl

/-- Milliseconds in a phase while some events go by, each event's time being where the phase it starts
begins. -/
def timesTo (control : Control) (since : Int) : List RunEvent → Int → Phase → Int
  | [], now, p => if p = control.phase then now - since else 0
  | event :: rest, now, p =>
      (if p = control.phase then event.at' - since else 0) +
        timesTo (control.step event) event.at' rest now p

/-- The events go by in the order of their times. -/
def InOrder (since : Int) : List RunEvent → Int → Prop
  | [], now => since ≤ now
  | event :: rest, now => since ≤ event.at' ∧ InOrder event.at' rest now

theorem InOrder.le (h : InOrder since events now) : since ≤ now := by
  induction events generalizing since with
  | nil => exact h
  | cons event rest ih => exact Int.le_trans h.1 (ih h.2)

theorem InOrder.mono {later : Int} (h : InOrder since events now) (hle : now ≤ later) :
    InOrder since events later := by
  induction events generalizing since with
  | nil => exact Int.le_trans h hle
  | cons event rest ih => exact ⟨h.1, ih h.2⟩

theorem InOrder.split {earlier rest : List RunEvent} (h : InOrder since (earlier ++ event :: rest) now) :
    InOrder since earlier event.at' ∧ InOrder event.at' rest now := by
  induction earlier generalizing since with
  | nil => exact h
  | cons other earlier ih =>
      obtain ⟨hearlier, hrest⟩ := ih h.2
      exact ⟨⟨h.1, hearlier⟩, hrest⟩

theorem timesTo_nonneg (control : Control) (h : InOrder since events now) :
    0 ≤ timesTo control since events now p := by
  induction events generalizing control since with
  | nil =>
      have hle : since ≤ now := h
      rw [timesTo]
      split <;> omega
  | cons event rest ih =>
      have hrest := ih (control.step event) h.2
      have hle := h.1
      rw [timesTo]
      split <;> omega

theorem mem_phases (p : Phase) : p ∈ phases := by
  cases p <;> decide

theorem addUp_one (q : Phase) (n : Int) : addUp (fun p => if p = q then n else 0) phases = n := by
  have hnodup : phases.Nodup := by decide
  have hsame : (fun p => if p = q then n else 0) = fun p => if q = p then n else 0 := by
    funext p
    simp only [eq_comm]
  rw [hsame, addUp_single hnodup (mem_phases q)]

/-- The phases add up to the time that went by. -/
theorem addUp_timesTo : addUp (timesTo control since events now) phases = now - since := by
  induction events generalizing control since with
  | nil => exact addUp_one control.phase (now - since)
  | cons event rest ih =>
      have hsplit : timesTo control since (event :: rest) now = fun p =>
          (if p = control.phase then event.at' - since else 0) +
            timesTo (control.step event) event.at' rest now p := rfl
      rw [hsplit, addUp_add, addUp_one, ih]
      omega

/-! ## What the clock counts -/

/-- The clock runs, and stands at no later time. -/
structure Running (clock : Clock) (since : Int) : Prop where
  integrated : clock.integrated = none
  since_le : clock.since ≤ since

/-- One event: the time up to it stays with the phase before, the time after goes to the phase then. -/
theorem Running.observe (h : Running clock event.at') (hkind : event.kind ≠ .runIntegrated)
    (hnow : event.at' ≤ now) : Running (clock.observe event) event.at' ∧
      (clock.observe event).control = clock.control.step event ∧
      (clock.observe event).spentBy now p = clock.spentBy event.at' p +
        if p = (clock.control.step event).phase then now - event.at' else 0 := by
  obtain ⟨hintegrated, hsince⟩ := h
  have hphase := Control.next_phase clock.control event
  have hspent {t : Int} (ht : clock.since ≤ t) : clock.spentBy t p =
      if p = clock.control.phase then clock.spent p + (t - clock.since) else clock.spent p := by
    have hmax : max (t - clock.since) 0 = t - clock.since := by omega
    unfold Clock.spentBy
    rw [hintegrated, hmax]
    simp only [Option.isNone_none, true_and]
  -- The event leaves the phase as it is, or enters one.
  rcases hnext : clock.control.next event with ⟨none | phase, control⟩
  · rw [hnext] at hphase
    have hobserve : clock.observe event = { clock with control } := by
      unfold Clock.observe
      rw [hintegrated, hnext]
      exact if_neg hkind
    have hstep : clock.control.step event = control := by
      unfold Control.step
      rw [hnext]
    have hlate := hspent (Int.le_trans hsince hnow)
    have hthen := hspent hsince
    have hsame : (clock.observe event).spentBy now p = clock.spentBy now p := by
      rw [hobserve]
      unfold Clock.spentBy
      rw [← hphase]
    refine ⟨?_, ?_, ?_⟩
    · rw [hobserve]
      exact ⟨hintegrated, hsince⟩
    · rw [hobserve, hstep]
    · rw [hsame, hlate, hthen, hstep, ← hphase]
      split <;> omega
  · rw [hnext] at hphase
    have hsettled := Control.settle_phase control event phase
    have hobserve : clock.observe event =
        ({ clock with control := control.settle event phase } : Clock).enter phase event.at' := by
      unfold Clock.observe
      rw [hintegrated, hnext]
      exact if_neg hkind
    have hstep : clock.control.step event = { control.settle event phase with phase } := by
      unfold Control.step
      rw [hnext]
    have hmax : max event.at' clock.since = event.at' := max_eq_left hsince
    have hstays : max (event.at' - clock.since) 0 = event.at' - clock.since := by omega
    have hleft : max (now - event.at') 0 = now - event.at' := by omega
    have hthen := hspent hsince
    refine ⟨?_, ?_, ?_⟩
    · rw [hobserve]
      exact ⟨hintegrated, by show max event.at' clock.since ≤ event.at'; omega⟩
    · rw [hobserve, hstep]
      rfl
    · rw [hobserve, hthen, hstep]
      unfold Clock.spentBy Clock.enter
      dsimp only
      rw [hintegrated, hsettled, hphase, hmax, hstays, hleft]
      simp only [Option.isNone_none, true_and]
      split <;> split <;> omega

/-- No event lands the run. -/
def Waiting (events : List RunEvent) : Prop := ∀ event ∈ events, event.kind ≠ .runIntegrated

/-- Any number of events, by induction over them. -/
theorem Running.observeAll (h : Running clock since) (hwaiting : Waiting events)
    (horder : InOrder since events now) : Running (events.foldl Clock.observe clock) now ∧
      (events.foldl Clock.observe clock).control = events.foldl Control.step clock.control ∧
      (events.foldl Clock.observe clock).spentBy now p =
        clock.spentBy since p + timesTo clock.control since events now p := by
  induction events generalizing clock since with
  | nil =>
      obtain ⟨hintegrated, hsince⟩ := h
      have hle : since ≤ now := horder
      refine ⟨⟨hintegrated, Int.le_trans hsince hle⟩, rfl, ?_⟩
      show clock.spentBy now p = clock.spentBy since p + if p = clock.control.phase then _ else _
      unfold Clock.spentBy
      rw [hintegrated]
      simp only [Option.isNone_none, true_and]
      split <;> omega
  | cons event rest ih =>
      obtain ⟨hle, horder⟩ := horder
      have hmem : event.kind ≠ .runIntegrated := hwaiting event List.mem_cons_self
      have hlater : Running clock event.at' := ⟨h.integrated, Int.le_trans h.since_le hle⟩
      obtain ⟨hobserved, hcontrol, hspent⟩ :=
        hlater.observe (p := p) hmem (Int.le_refl event.at')
      obtain ⟨hrunning, hcontrols, hspents⟩ :=
        ih hobserved (fun other hother => hwaiting other (List.mem_cons_of_mem _ hother)) horder
      rw [hcontrol] at hcontrols
      refine ⟨hrunning, hcontrols, ?_⟩
      -- The time up to the first event is in the phase before it.
      have hbefore : clock.spentBy event.at' p = clock.spentBy since p +
          if p = clock.control.phase then event.at' - since else 0 := by
        have hsince := h.since_le
        unfold Clock.spentBy
        rw [h.integrated]
        simp only [Option.isNone_none, true_and]
        split <;> omega
      rw [List.foldl_cons, hspents, hspent, hcontrol, hbefore, timesTo]
      split <;> split <;> omega

/-- The phase a run is in after its first validation. -/
def firstControl (first : RunEvent) : Control := Control.step { phase := .exit } first

theorem running_start (first : RunEvent) (hkind : first.kind ≠ .runIntegrated) :
    Running (Clock.start first) first.at' ∧ (Clock.start first).control = firstControl first ∧
      (Clock.start first).spentBy first.at' p = 0 := by
  have hrunning : Running { control := { phase := .exit }, since := first.at' } first.at' :=
    ⟨rfl, Int.le_refl _⟩
  obtain ⟨hstart, hcontrol, hspent⟩ := hrunning.observe (p := p) hkind (Int.le_refl first.at')
  refine ⟨hstart, hcontrol, hspent.trans ?_⟩
  unfold Clock.spentBy
  dsimp only
  split <;> split <;> omega

/-- Milliseconds in a phase between the first validation and the landing. -/
def timeIn (first : RunEvent) (middle : List RunEvent) (last : Int) (p : Phase) : Int :=
  timesTo (firstControl first) first.at' middle last p

/-- The landing ends the last phase. -/
theorem observe_landing (h : Running clock event.at') (hkind : event.kind = .runIntegrated) :
    (clock.observe event).integrated = some event.at' ∧
      (clock.observe event).spent p = clock.spentBy event.at' p := by
  unfold Clock.observe Clock.spentBy Clock.enter
  rw [h.integrated, hkind]
  dsimp only
  simp only [Option.isNone_none, true_and]
  exact ⟨rfl, rfl⟩

/-- After it only the push is looked at. -/
theorem observeAll_landed (events : List RunEvent) {at_ : Int} (h : clock.integrated = some at_) :
    (events.foldl Clock.observe clock).integrated = some at_ ∧
      (events.foldl Clock.observe clock).spent = clock.spent := by
  induction events generalizing clock with
  | nil => exact ⟨h, rfl⟩
  | cons event rest ih =>
      have hobserve : (clock.observe event).integrated = some at_ ∧
          (clock.observe event).spent = clock.spent := by
        unfold Clock.observe
        rw [h]
        dsimp only
        split
        · exact ⟨rfl, rfl⟩
        · exact ⟨h, rfl⟩
      obtain ⟨hintegrated, hspent⟩ := ih hobserve.1
      exact ⟨hintegrated, hspent.trans hobserve.2⟩

/-! ## The wait as it is reported -/

/-- Before the first validation there is no clock. -/
theorem track_before {before : List RunEvent} (h : ∀ event ∈ before, event.kind ≠ .validationFinished) :
    (track before).validated = none ∧ (track before).land = none := by
  have hall : ∀ t : Track, t.validated = none ∧ t.land = none →
      (before.foldl Track.observe t).validated = none ∧ (before.foldl Track.observe t).land = none := by
    induction before with
    | nil => exact fun _ ht => ht
    | cons event rest ih =>
        intro t ⟨hvalidated, hland⟩
        refine ih (fun other hother => h other (List.mem_cons_of_mem _ hother)) _ ?_
        have hkind := h event List.mem_cons_self
        unfold Track.observe
        rw [hland]
        cases hk : event.kind with
        | validationFinished => exact absurd hk hkind
        | _ => exact ⟨hvalidated, rfl⟩
  exact hall {} ⟨rfl, rfl⟩

/-- The first validation starts it. -/
theorem track_first {before : List RunEvent} (h : ∀ event ∈ before, event.kind ≠ .validationFinished)
    (hkind : event.kind = .validationFinished) :
    ((track before).observe event).validated = some event.at' ∧
      ((track before).observe event).land = some (.start event) := by
  obtain ⟨hnone, _⟩ := track_before h
  unfold Track.observe
  rw [hkind, hnone]
  exact ⟨rfl, rfl⟩

/-- A validated run keeps its first validation, and its clock takes every event. -/
theorem track_after (events : List RunEvent) {t : Track} {at_ : Int} {c : Clock}
    (hvalidated : t.validated = some at_) (hland : t.land = some c) :
    (events.foldl Track.observe t).validated = some at_ ∧
      (events.foldl Track.observe t).land = some (events.foldl Clock.observe c) := by
  induction events generalizing t c with
  | nil => exact ⟨hvalidated, hland⟩
  | cons event rest ih =>
      have hobserve : (t.observe event).validated = some at_ ∧
          (t.observe event).land = some (c.observe event) := by
        unfold Track.observe
        rw [hland]
        dsimp only
        split
        · rw [hvalidated]
          exact ⟨rfl, rfl⟩
        · exact ⟨hvalidated, rfl⟩
        · exact ⟨hvalidated, rfl⟩
      exact ih hobserve.1 hobserve.2

/-- The landing says what the wait was. -/
theorem observe_wait {t : Track} {at_ : Int} (hkind : event.kind = .runIntegrated)
    (hvalidated : t.validated = some at_) :
    (t.observe event).waitToLand = some ((event.at' - at_).tdiv 1000) := by
  unfold Track.observe
  rw [hkind, hvalidated]
  rfl

theorem track_wait {t : Track} (h : Waiting events) :
    (events.foldl Track.observe t).waitToLand = t.waitToLand := by
  induction events generalizing t with
  | nil => rfl
  | cons event rest ih =>
      rw [List.foldl_cons, ih fun other hother => h other (List.mem_cons_of_mem _ hother)]
      have hkind := h event List.mem_cons_self
      unfold Track.observe
      dsimp only
      split
      · split <;> rfl
      next hlands => exact absurd hlands hkind
      · rfl

/-- The events of a run that landed: the first validation, what came up to the landing, and the rest. -/
structure Landing where
  before : List RunEvent
  first : RunEvent
  middle : List RunEvent
  last : RunEvent
  after : List RunEvent
  notBefore : ∀ event ∈ before, event.kind ≠ .validationFinished
  first_kind : first.kind = .validationFinished
  waiting : Waiting middle
  last_kind : last.kind = .runIntegrated
  landedOnce : Waiting after
  inOrder : InOrder first.at' middle last.at'

namespace Landing

variable (landing : Landing)

/-- All its events. -/
def log : List RunEvent :=
  landing.before ++ landing.first :: (landing.middle ++ landing.last :: landing.after)

/-- Milliseconds in a phase, read off the times of the events. -/
def millis (p : Phase) : Int := timeIn landing.first landing.middle landing.last.at' p

theorem millis_nonneg : 0 ≤ landing.millis p := timesTo_nonneg _ landing.inOrder

/-- The phases add up to the wait, to the millisecond. -/
theorem addUp_millis : addUp landing.millis phases = landing.last.at' - landing.first.at' :=
  addUp_timesTo

/-- The clock of a landing, after all its events. -/
theorem clock_log : ∃ clock, (track landing.log).land = some clock ∧
    clock.integrated = some landing.last.at' ∧ ∀ p, clock.spent p = landing.millis p := by
  obtain ⟨before, first, middle, last, after, hbefore, hfirst, hwaiting, hlast, hafter, horder⟩ := landing
  have hkind : first.kind ≠ .runIntegrated := by
    rw [hfirst]
    decide
  have hstart := track_first hbefore hfirst
  have hland := (track_after (middle ++ last :: after) hstart.1 hstart.2).2
  rw [List.foldl_append (f := Clock.observe), List.foldl_cons (f := Clock.observe)] at hland
  have hlog : track (before ++ first :: (middle ++ last :: after)) =
      (middle ++ last :: after).foldl Track.observe ((track before).observe first) := by
    unfold track
    rw [List.foldl_append, List.foldl_cons]
  -- Up to the landing the clock runs, then it stands.
  have hmiddle (p : Phase) : Running (middle.foldl Clock.observe (.start first)) last.at' ∧
      (middle.foldl Clock.observe (.start first)).spentBy last.at' p =
        timeIn first middle last.at' p := by
    obtain ⟨hstarted, hcontrol, hzero⟩ := running_start (p := p) first hkind
    obtain ⟨hrunning, _, hspent⟩ := hstarted.observeAll (p := p) hwaiting horder
    rw [hcontrol, hzero, Int.zero_add] at hspent
    exact ⟨hrunning, hspent⟩
  have hlanded (p : Phase) := observe_landing (p := p) (hmiddle p).1 hlast
  obtain ⟨hintegrated, hspent⟩ := observeAll_landed after (hlanded .exit).1
  refine ⟨_, ?_, hintegrated, fun p => ?_⟩
  · show (track (before ++ first :: (middle ++ last :: after))).land = _
    rw [hlog, hland]
  · rw [hspent, (hlanded p).2, (hmiddle p).2]
    rfl

/-- The wait of a landing, after all its events. -/
theorem waitToLand_log : (track landing.log).waitToLand =
    some ((landing.last.at' - landing.first.at').tdiv 1000) := by
  obtain ⟨before, first, middle, last, after, hbefore, hfirst, hwaiting, hlast, hafter, horder⟩ := landing
  have hstart := track_first hbefore hfirst
  have hvalidated := (track_after middle hstart.1 hstart.2).1
  have hsplit : track (before ++ first :: (middle ++ last :: after)) = after.foldl Track.observe
      ((middle.foldl Track.observe ((track before).observe first)).observe last) := by
    unfold track
    rw [List.foldl_append, List.foldl_cons, List.foldl_append, List.foldl_cons]
  show (track (before ++ first :: (middle ++ last :: after))).waitToLand = _
  rw [hsplit, track_wait hafter]
  exact observe_wait hlast hvalidated

/-- What is reported of the phases: each cut to seconds. -/
theorem landPhases_log : ∃ push, (track landing.log).landPhases =
    some { secs := fun p => (landing.millis p).tdiv 1000, push } := by
  obtain ⟨clock, hland, hintegrated, hspent⟩ := landing.clock_log
  refine ⟨clock.push, ?_⟩
  unfold Track.landPhases
  rw [hland]
  have hlanded : clock.landed = true := by
    unfold Clock.landed
    rw [hintegrated]
    rfl
  have hsecs (p : Phase) : clock.spentBy 0 p = landing.millis p := by
    unfold Clock.spentBy
    rw [hintegrated]
    exact hspent p
  simp only [Option.filter_some, hlanded, if_true, Option.map_some, Clock.phases, hsecs]

end Landing

/-! ## Asks that interrupt a phase -/

/-- An ask of the run opens that holds it, with an id of its own. -/
structure Opens (event : RunEvent) (id : String) : Prop where
  kind : event.kind = .askOpened
  status : event.status ≠ some "needs_session"
  key : event.askKey = some id
  blocked : event.askKind ≠ some "blocked"
  question : event.askKind ≠ some "planner_question"
  approve : event.askKind ≠ some "approve_landing"

/-- An ask is answered, none of `approve_landing`. -/
structure Answered (event : RunEvent) : Prop where
  kind : event.kind = .askAnswered
  status : event.status ≠ some "needs_session"
  approve : event.askKind ≠ some "approve_landing"

/-- An event that starts no phase: one of a kind the clock does not look at before the landing, or an ask
about the run that does not hold it. -/
structure Quiet (event : RunEvent) : Prop where
  status : event.status ≠ some "needs_session"
  kind : (∃ kind, event.kind = .other kind) ∨ event.kind = .pushFinished ∨ event.kind = .pushFailed ∨
    event.kind = .pushSkipped ∨
    event.kind = .askOpened ∧ (event.askKind = some "blocked" ∨ event.askKind = some "planner_question")

/-- The asks an answer leaves open. -/
def leftOpen (ids : List String) (event : RunEvent) : List String :=
  ids.filter fun id => event.askKey ≠ some id

/-- While some asks are open: others open, asks are answered in any order, and the last answer, at the
time said, leaves none. -/
inductive Settles : List String → List RunEvent → Int → Prop
  | last {ids event} : Answered event → leftOpen ids event = [] → Settles ids [event] event.at'
  | opens {ids event id rest answered} : Opens event id → id ∉ ids →
      Settles (ids ++ [id]) rest answered → Settles ids (event :: rest) answered
  | answers {ids event rest answered} : Answered event → leftOpen ids event ≠ [] →
      Settles (leftOpen ids event) rest answered → Settles ids (event :: rest) answered
  | quiet {ids event rest answered} : Quiet event → Settles ids rest answered →
      Settles ids (event :: rest) answered

/-- The run waits for a person, with some asks open; `before` is the phase to go back to. -/
structure Held (control : Control) (ids : List String) (before : Option Phase) : Prop where
  phase : control.phase = .ask
  asks : control.asks.map (·.1) = ids
  before_eq : control.beforeAsk = before
  approve : ∀ ask ∈ control.asks, ask.2 ≠ some "approve_landing"

variable {ids : List String} {before : Option Phase}

theorem Quiet.step (h : Quiet event) (control : Control) : control.step event = control := by
  obtain ⟨hstatus, hkind⟩ := h
  have hnext : control.next event = (none, control) := by
    unfold Control.next
    rw [if_neg hstatus]
    rcases hkind with ⟨kind, hkind⟩ | hkind | hkind | hkind | ⟨hkind, hask⟩
    · rw [hkind]
    · rw [hkind]
    · rw [hkind]
    · rw [hkind]
    · rw [hkind]
      exact if_pos hask
  unfold Control.step
  rw [hnext]

/-- What an opening does to the control. -/
theorem Opens.step {id : String} (h : Opens event id) (control : Control) : control.step event =
    { phase := .ask
      asks := Control.insertAsk control.asks id event.askKind
      beforeAsk := if control.phase = .ask then control.beforeAsk else some control.phase } := by
  obtain ⟨hkind, hstatus, hkey, hblocked, hquestion, _⟩ := h
  unfold Control.step Control.next Control.openAsk Control.settle
  rw [if_neg hstatus, hkind, hkey]
  dsimp only
  rw [if_neg (not_or.mpr ⟨hblocked, hquestion⟩)]
  rfl

/-- The asks left open are those whose ids are left. -/
theorem removeAsk_ids (asks : List (String × Option String)) (event : RunEvent) :
    (Control.removeAsk asks event.askKey).map (·.1) = leftOpen (asks.map (·.1)) event := by
  have hkeep : Control.removeAsk asks event.askKey =
      asks.filter fun ask => event.askKey ≠ some ask.1 := by
    unfold Control.removeAsk
    cases event.askKey with
    | none =>
        refine (List.filter_eq_self.mpr fun ask _ => ?_).symm
        exact decide_eq_true (Option.some_ne_none ask.1).symm
    | some key =>
        refine List.filter_congr fun ask _ => ?_
        simp only [ne_eq, Option.some.injEq, eq_comm]
  rw [hkeep]
  unfold leftOpen
  rw [List.filter_map]
  rfl

/-- What an answer does while asks are open: the last one brings the phase before back. -/
theorem Held.answer (h : Held control ids before) (hanswered : Answered event) :
    control.step event =
      if leftOpen ids event = [] then
        { phase := before.getD .ask, asks := [], beforeAsk := none }
      else { control with asks := Control.removeAsk control.asks event.askKey } := by
  obtain ⟨hphase, hids, hbefore, happrove⟩ := h
  obtain ⟨hkind, hstatus, hnot⟩ := hanswered
  -- No ask that is open is of the kind, so none can lend it to the answer.
  have hopened : (event.askKey.bind fun key =>
      (control.asks.find? (·.1 = key)).bind (·.2)) ≠ some "approve_landing" := by
    intro hlent
    obtain ⟨key, _, hlent⟩ := Option.bind_eq_some_iff.mp hlent
    obtain ⟨ask, hfind, hask⟩ := Option.bind_eq_some_iff.mp hlent
    exact happrove ask (List.mem_of_find?_eq_some hfind) hask
  have hneither : event.askKind.or (event.askKey.bind fun key =>
      (control.asks.find? (·.1 = key)).bind (·.2)) ≠ some "approve_landing" := by
    cases hask : event.askKind with
    | none => exact hopened
    | some kind =>
        rw [hask] at hnot
        exact hnot
  have hleft : leftOpen ids event = [] ↔
      (Control.removeAsk control.asks event.askKey).isEmpty = true := by
    rw [← hids, ← removeAsk_ids, List.map_eq_nil_iff, List.isEmpty_iff]
  unfold Control.step Control.next Control.answerAsk
  rw [if_neg hstatus, hkind]
  dsimp only
  rw [if_neg hneither]
  by_cases hempty : leftOpen ids event = []
  · rw [if_pos hempty, if_pos (hleft.mp hempty), hbefore]
    cases before with
    | none =>
        show ({ phase := control.phase, beforeAsk := none, asks := [] } : Control) = _
        rw [hphase]
        rfl
    | some phase =>
        unfold Control.settle
        dsimp only
        rw [if_neg fun h : phase ≠ .ask ∧ event.kind ≠ .askAnswered => h.2 hkind]
        rfl
  · rw [if_neg hempty, if_neg fun h => hempty (hleft.mpr h)]

/-- The asks of a wait are kept up to date by every event but the last answer. -/
theorem Held.opens {id : String} (h : Held control ids before) (hopens : Opens event id)
    (hnew : id ∉ ids) : Held (control.step event) (ids ++ [id]) before := by
  obtain ⟨hphase, hids, hbefore, happrove⟩ := h
  have hothers : control.asks.filter (·.1 ≠ id) = control.asks := by
    refine List.filter_eq_self.mpr fun ask hask => decide_eq_true fun heq => hnew ?_
    rw [← hids, ← heq]
    exact List.mem_map_of_mem hask
  rw [hopens.step, if_pos hphase]
  unfold Control.insertAsk
  rw [hothers]
  refine ⟨rfl, ?_, hbefore, fun ask hask => ?_⟩
  · show (control.asks ++ [(id, event.askKind)]).map (·.1) = _
    rw [List.map_append, hids]
    rfl
  · rcases List.mem_append.mp hask with hask | hask
    · exact happrove ask hask
    · rw [List.mem_singleton.mp hask]
      exact hopens.approve

theorem Held.answers (h : Held control ids before) (hanswered : Answered event)
    (hleft : leftOpen ids event ≠ []) : Held (control.step event) (leftOpen ids event) before := by
  rw [h.answer hanswered, if_neg hleft]
  refine ⟨h.phase, ?_, h.before_eq, fun ask hask => h.approve ask ?_⟩
  · rw [← h.asks]
    exact removeAsk_ids control.asks event
  · revert hask
    show ask ∈ Control.removeAsk control.asks event.askKey → ask ∈ control.asks
    unfold Control.removeAsk
    cases event.askKey with
    | none => exact id
    | some key => exact fun hask => (List.mem_filter.mp hask).1

/-- While asks are open the time is a person's; with the last answer the phase before goes on. -/
theorem timesTo_settles {answered : Int} (h : Held control ids before)
    (hsettles : Settles ids events answered) :
    timesTo control since events now p = (if p = .ask then answered - since else 0) +
      if p = before.getD .ask then now - answered else 0 := by
  induction hsettles generalizing control since with
  | @last ids event hanswered hleft =>
      rw [timesTo, timesTo, h.phase, h.answer hanswered, if_pos hleft]
  | @opens ids event id rest answered hopens hnew _ ih =>
      rw [timesTo, ih (h.opens hopens hnew), h.phase]
      split <;> omega
  | @answers ids event rest answered hanswered hleft _ ih =>
      rw [timesTo, ih (h.answers hanswered hleft), h.phase]
      split <;> omega
  | @quiet ids event rest answered hquiet _ ih =>
      rw [timesTo, hquiet.step, ih h, h.phase]
      split <;> omega

/-- After the last answer no ask is open and the phase before is back. -/
theorem control_settles {answered : Int} (h : Held control ids before)
    (hsettles : Settles ids events answered) : events.foldl Control.step control =
      { phase := before.getD .ask, asks := [], beforeAsk := none } := by
  induction hsettles generalizing control with
  | @last ids event hanswered hleft =>
      rw [List.foldl_cons, h.answer hanswered, if_pos hleft]
      rfl
  | @opens ids event id rest answered hopens hnew _ ih => exact ih (h.opens hopens hnew)
  | @answers ids event rest answered hanswered hleft _ ih => exact ih (h.answers hanswered hleft)
  | @quiet ids event rest answered hquiet _ ih =>
      rw [List.foldl_cons, hquiet.step]
      exact ih h

theorem waiting_settles {answered : Int} (hsettles : Settles ids events answered) : Waiting events := by
  induction hsettles with
  | last hanswered _ =>
      intro event hmem
      rw [List.mem_singleton.mp hmem, hanswered.kind]
      decide
  | opens hopens _ _ ih =>
      refine List.forall_mem_cons.mpr ⟨?_, ih⟩
      rw [hopens.kind]
      decide
  | answers hanswered _ _ ih =>
      refine List.forall_mem_cons.mpr ⟨?_, ih⟩
      rw [hanswered.kind]
      decide
  | quiet hquiet _ ih =>
      refine List.forall_mem_cons.mpr ⟨?_, ih⟩
      rcases hquiet.kind with ⟨kind, hkind⟩ | hkind | hkind | hkind | ⟨hkind, _⟩
      all_goals
        rw [hkind]
        exact fun h => Kind.noConfusion h

/-- An ask that holds the run opens with an id. -/
def HasId (event : RunEvent) : Prop :=
  event.kind = .askOpened → event.askKind ≠ some "blocked" → event.askKind ≠ some "planner_question" →
    event.askKey ≠ none

/-- With no ask open there is no phase to go back to. -/
def GoesOn (control : Control) : Prop := control.asks = [] → control.beforeAsk = none

theorem GoesOn.settle {phase : Phase} (h : GoesOn control) :
    GoesOn { control.settle event phase with phase } := by
  unfold Control.settle
  split
  · exact fun _ => rfl
  · exact h

theorem GoesOn.openAsk (h : GoesOn control) (hkind : event.kind = .askOpened) (hid : HasId event) :
    GoesOn (control.openAsk event).2 := by
  unfold Control.openAsk
  split
  · exact h
  next hholds =>
    -- The ask that opened is among the open ones.
    obtain ⟨hblocked, hquestion⟩ := not_or.mp hholds
    obtain ⟨key, hkey⟩ := Option.ne_none_iff_exists'.mp (hid hkind hblocked hquestion)
    rw [hkey]
    intro hempty
    have hopen : Control.insertAsk control.asks key event.askKind = [] := hempty
    unfold Control.insertAsk at hopen
    exact absurd hopen (List.append_ne_nil_of_right_ne_nil _ (List.cons_ne_nil _ _))

theorem goesOn_answerAsk : GoesOn (control.answerAsk event).2 := by
  unfold Control.answerAsk
  dsimp only
  split
  · exact fun _ => rfl
  · split
    · exact fun _ => rfl
    next hopen =>
      intro hempty
      exact absurd (List.isEmpty_iff.mpr hempty) hopen

theorem GoesOn.next (h : GoesOn control) (hid : HasId event) : GoesOn (control.next event).2 := by
  unfold Control.next
  split
  · exact h
  · cases hkind : event.kind with
    | askOpened => exact h.openAsk hkind hid
    | askAnswered => exact goesOn_answerAsk
    | _ => exact h

theorem GoesOn.step (h : GoesOn control) (hid : HasId event) : GoesOn (control.step event) := by
  have hnext := h.next hid
  unfold Control.step
  split
  next control' heq =>
    rw [heq] at hnext
    exact hnext
  next phase control' heq =>
    rw [heq] at hnext
    exact hnext.settle

theorem GoesOn.steps (h : GoesOn control) (hid : ∀ event ∈ events, HasId event) :
    GoesOn (events.foldl Control.step control) := by
  induction events generalizing control with
  | nil => exact h
  | cons event rest ih =>
      have hfirst := h.step (hid event List.mem_cons_self)
      exact ih hfirst fun other hmem => hid other (List.mem_cons_of_mem _ hmem)

/-- An ask opens with none open: from then to the last answer the time is a person's, and after it the
interrupted phase goes on. -/
theorem Running.interrupted {opened : RunEvent} {id : String} {rest : List RunEvent} {answered : Int}
    (h : Running clock opened.at') (hgoesOn : GoesOn clock.control) (hnone : clock.control.asks = [])
    (hopens : Opens opened id) (hsettles : Settles [id] rest answered)
    (horder : InOrder opened.at' rest answered) (hnow : answered ≤ now) :
    ((opened :: rest).foldl Clock.observe clock).control.phase = clock.control.phase ∧
      ((opened :: rest).foldl Clock.observe clock).spentBy now p = clock.spentBy opened.at' p +
        ((if p = .ask then answered - opened.at' else 0) +
          if p = clock.control.phase then now - answered else 0) := by
  have hwaits : Waiting (opened :: rest) := by
    refine List.forall_mem_cons.mpr ⟨?_, waiting_settles hsettles⟩
    rw [hopens.kind]
    decide
  have hwhole : InOrder opened.at' (opened :: rest) now := ⟨Int.le_refl _, horder.mono hnow⟩
  obtain ⟨_, hafter, hspent⟩ := h.observeAll (p := p) hwaits hwhole
  -- The opening keeps the phase it interrupts, which is `ask` itself when the run waits already.
  have hback : (clock.control.step opened).beforeAsk.getD .ask = clock.control.phase := by
    rw [hopens.step]
    dsimp only
    split
    next hask =>
      rw [hgoesOn hnone, hask]
      rfl
    · rfl
  have hheld : Held (clock.control.step opened) [id] (clock.control.step opened).beforeAsk := by
    rw [hopens.step, hnone]
    refine ⟨rfl, rfl, rfl, fun ask hask => ?_⟩
    rw [List.mem_singleton.mp hask]
    exact hopens.approve
  constructor
  · rw [hafter, List.foldl_cons, control_settles hheld hsettles]
    exact hback
  · rw [hspent, timesTo, timesTo_settles hheld hsettles, hback]
    split <;> split <;> omega

/-- A run's asks, from a moment at which none is open: one opens, maybe others, and the last is answered. -/
structure Interruption where
  first : RunEvent
  earlier : List RunEvent
  opened : RunEvent
  id : String
  rest : List RunEvent
  answered : Int
  first_kind : first.kind = .validationFinished
  waiting : Waiting earlier
  haveIds : ∀ event ∈ earlier, HasId event
  noneOpen : (earlier.foldl Clock.observe (.start first)).control.asks = []
  opens : Opens opened id
  settles : Settles [id] rest answered
  inOrder : InOrder first.at' (earlier ++ opened :: rest) answered

namespace Interruption

variable (asked : Interruption)

/-- The clock when the first ask opens. -/
def interrupted : Clock := asked.earlier.foldl Clock.observe (.start asked.first)

/-- The clock after the last answer. -/
def resumed : Clock := (asked.opened :: asked.rest).foldl Clock.observe asked.interrupted

/-- What the wait for a person takes, and what it gives back. -/
theorem spentBy_resumed (hnow : asked.answered ≤ now) :
    asked.resumed.control.phase = asked.interrupted.control.phase ∧
      asked.resumed.spentBy now p = asked.interrupted.spentBy asked.opened.at' p +
        ((if p = .ask then asked.answered - asked.opened.at' else 0) +
          if p = asked.interrupted.control.phase then now - asked.answered else 0) := by
  have hkind : asked.first.kind ≠ .runIntegrated := by
    rw [asked.first_kind]
    decide
  obtain ⟨hearlier, hrest⟩ := asked.inOrder.split
  obtain ⟨hstarted, hstart, _⟩ := running_start (p := p) asked.first hkind
  obtain ⟨hrunning, hcontrol, _⟩ := hstarted.observeAll (p := p) asked.waiting hearlier
  rw [hstart] at hcontrol
  have hgoesOn : GoesOn asked.interrupted.control := by
    have hnew : GoesOn { phase := .exit } := fun _ => rfl
    unfold interrupted
    rw [hcontrol]
    refine GoesOn.steps (hnew.step fun h => ?_) asked.haveIds
    exact absurd (asked.first_kind.symm.trans h) (by decide)
  exact hrunning.interrupted hgoesOn asked.noneOpen asked.opens asked.settles hrest hnow

end Interruption

/-! ## What adds up -/

/-- Whole seconds of the phases add up to those of the wait when the rests are less than a second. -/
theorem addUp_seconds {spent : Phase → Int} {total : Int} (hnonneg : ∀ p, 0 ≤ spent p)
    (htotal : addUp spent phases = total) :
    addUp (fun p => (spent p).tdiv 1000) phases = total.tdiv 1000 ↔
      addUp (fun p => spent p % 1000) phases < 1000 := by
  have hcut : (fun p => (spent p).tdiv 1000) = fun p => spent p / 1000 := by
    funext p
    exact Int.tdiv_eq_ediv_of_nonneg (hnonneg p)
  have hle : 0 ≤ total := htotal ▸ addUp_nonneg fun p _ => hnonneg p
  have hrest : 0 ≤ addUp (fun p => spent p % 1000) phases :=
    addUp_nonneg fun p _ => Int.emod_nonneg (spent p) (by decide)
  have hparts := addUp_ediv spent 1000 phases
  rw [hcut, Int.tdiv_eq_ediv_of_nonneg hle, ← htotal]
  omega

/-- The phases reported of a landing are not negative; they add up to the wait it reports exactly when
what is cut off them is less than a second.  And the asks of a run take the time until the last is
answered, and no more. -/
theorem landing_phases_add_up_iff (landing : Landing) :
    (∃ reported wait, (track landing.log).landPhases = some reported ∧
      (track landing.log).waitToLand = some wait ∧ (∀ p, 0 ≤ reported.secs p) ∧
      (addUp reported.secs phases = wait ↔ addUp (fun p => landing.millis p % 1000) phases < 1000)) ∧
    ∀ (asked : Interruption) (now : Int) (p : Phase), asked.answered ≤ now →
      asked.resumed.control.phase = asked.interrupted.control.phase ∧
      asked.resumed.spentBy now p = asked.interrupted.spentBy asked.opened.at' p +
        ((if p = .ask then asked.answered - asked.opened.at' else 0) +
          if p = asked.interrupted.control.phase then now - asked.answered else 0) := by
  refine ⟨?_, fun asked now p hnow => asked.spentBy_resumed hnow⟩
  obtain ⟨push, hreported⟩ := landing.landPhases_log
  refine ⟨_, _, hreported, landing.waitToLand_log, fun p => ?_, ?_⟩
  · exact Int.tdiv_nonneg landing.millis_nonneg (by decide)
  · exact addUp_seconds (fun _ => landing.millis_nonneg) landing.addUp_millis

/-- A landing of one second, half of it under review. -/
def halves : Landing where
  before := []
  first := { kind := .validationFinished, at' := 0 }
  middle := [{ kind := .reviewStarted, at' := 500 }]
  last := { kind := .runIntegrated, at' := 1000 }
  after := []
  notBefore := by simp
  first_kind := rfl
  waiting := by simp [Waiting]
  last_kind := rfl
  landedOnce := by simp [Waiting]
  inOrder := by simp [InOrder]

/-- Its phases add up to nothing. -/
theorem halves_lose_a_second :
    (track halves.log).landPhases.map (fun reported => addUp reported.secs phases) = some 0 ∧
      (track halves.log).waitToLand = some 1 := ⟨rfl, rfl⟩

/-- Two asks that overlap, the first answered first. -/
def twoAsks : Interruption where
  first := { kind := .validationFinished, at' := 0 }
  earlier := [{ kind := .reviewStarted, at' := 500 }]
  opened := { kind := .askOpened, at' := 1000, askKey := some "a" }
  id := "a"
  rest :=
    [{ kind := .askOpened, at' := 2000, askKey := some "b" },
      { kind := .askAnswered, at' := 3000, askKey := some "a" },
      { kind := .askAnswered, at' := 4000, askKey := some "b" }]
  answered := 4000
  first_kind := rfl
  waiting := by simp [Waiting]
  haveIds := by simp [HasId]
  noneOpen := by decide
  opens := by constructor <;> decide
  settles := by
    have hopens : Opens { kind := .askOpened, at' := 2000, askKey := some "b" } "b" := by
      constructor <;> decide
    refine .opens hopens (by decide) ?_
    exact .answers (by constructor <;> decide) (by decide)
      (.last (by constructor <;> decide) (by decide))
  inOrder := by simp [InOrder]

theorem landing_phases_add_up_halves : (∃ reported wait, (track halves.log).landPhases = some reported ∧
      (track halves.log).waitToLand = some wait ∧ (∀ p, 0 ≤ reported.secs p) ∧
      (addUp reported.secs phases = wait ↔ addUp (fun p => halves.millis p % 1000) phases < 1000)) ∧
    twoAsks.resumed.control.phase = .review ∧
    twoAsks.resumed.spentBy 5000 .review = twoAsks.interrupted.spentBy 1000 .review + (0 + 1000) :=
  ⟨(landing_phases_add_up_iff halves).1,
    (landing_phases_add_up_iff halves).2 twoAsks 5000 .review (by decide)⟩

end Dagq.LandClock
