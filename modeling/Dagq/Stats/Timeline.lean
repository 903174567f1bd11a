/-
# Dagq.Stats.Timeline -- the rules a gap's reason is given by.

The rules speak of what happened since some event of the run; the program keeps a state and moves it on
event by event.  The reason of every gap is the one the rules give, and no time is in two gaps.
-/
import Dagq.Domain.Timeline
import Dagq.Lib.Since

namespace Dagq.Timeline

open Lib

/-! ## What an event says -/

namespace Said

/-- A watched session begins a phase: the worker's own, a resumed one, or the live one asked for a
revise or to resolve a conflict. -/
def startsPhase (said : Said) : Prop :=
  said = agentStarted ∨ said = resumeStarted ∨ said = reviseRequested ∨ said = conflictRequested

/-- The phase's receipt, or answer, is observed, or its request was never sent. -/
def answers (said : Said) : Prop := said = receiptObserved ∨ said = fixed ∨ said = unsent

/-- The phase that an event begins. -/
def begins (said : Said) (phase : Phase) : Prop :=
  said = agentStarted ∧ phase = .session ∨ said = resumeStarted ∧ phase = .resume ∨
    said = reviseRequested ∧ phase = .revise ∨ said = conflictRequested ∧ phase = .conflict

/-- The live session is asked for a revise or to resolve a conflict. -/
def requests (said : Said) : Prop := said = reviseRequested ∨ said = conflictRequested

def changesPhase (said : Said) : Prop := said.startsPhase ∨ said = unsent ∨ said = exited

/-- The session's idle marker is read. -/
def marks (said : Said) : Prop := ∃ background, said = idle background ∨ said = nudged background

/-- An idle marker without background work. -/
def marksQuiet (said : Said) : Prop := said = idle false ∨ said = nudged false

def marksBackground (said : Said) : Prop := said = idle true ∨ said = nudged true

end Said

/-! ## The rules -/

/-- An ask that holds the run is open. -/
def AskOpen (id : Int) : List RunEvent → Prop :=
  Since (fun e => e.said = .askOpened id) fun e => e.said = .askAnswered id

/-- The run is being rebased and verified. -/
def Integrating : List RunEvent → Prop :=
  Since (fun e => e.said = .integrationStarted) fun e =>
    e.said = .integrationOver ∨ e.said = .resumeStarted

/-- The latest idle marker of the phase shows background work. -/
def Background : List RunEvent → Prop :=
  Since (fun e => e.said.marksBackground) fun e => e.said.marksQuiet ∨ e.said.startsPhase

/-- An idle marker was read in the phase. -/
def Marked : List RunEvent → Prop :=
  Since (fun e => e.said.marks) fun e => e.said.startsPhase

/-- The phase is answered. -/
def Answered : List RunEvent → Prop :=
  Since (fun e => e.said.answers) fun e => e.said.startsPhase

/-- The latest validation accepted the run, and no session was resumed since. -/
def Accepted : List RunEvent → Prop :=
  Since (fun e => e.said = .validated true) fun e =>
    e.said = .validated false ∨ e.said = .resumeStarted

/-- A receipt was observed since the session was resumed. -/
def Received : List RunEvent → Prop :=
  Since (fun e => e.said = .receiptObserved) fun e => e.said = .resumeStarted

mutual

/-- The phase of the session that the supervisor watches. -/
inductive Watched : Phase → List RunEvent → Prop
  | begun {phase event} (before after) :
      event.said.begins phase → (∀ e ∈ after, ¬e.said.changesPhase) → Watched phase (before ++ event :: after)
  /-- The request that replaced it could not be sent. -/
  | withdrawn {phase event} (before after) :
      Replaced phase before → event.said = .unsent → (∀ e ∈ after, ¬e.said.changesPhase) →
        Watched phase (before ++ event :: after)

/-- The phase that the latest request replaced, while it is not withdrawn. -/
inductive Replaced : Phase → List RunEvent → Prop
  | requested {phase event} (before after) :
      Watched phase before → event.said.requests →
        (∀ e ∈ after, ¬(e.said.requests ∨ e.said = .unsent)) → Replaced phase (before ++ event :: after)

end

open Classical in
/-- The reason of a gap after `events`, up to `next`: the first rule that matches. -/
noncomputable def ruleFor (events : List RunEvent) (next : Option RunEvent) : String :=
  if ∃ e ∈ next, e.kind = "run_adopted" ∨ e.kind = "run_recovered" then "no_supervisor"
  else if ∃ id, AskOpen id events then "waiting_ask"
  else if Integrating events then "integrating"
  else if ∃ phase, Watched phase events then
    if Background events then "background" else if Answered events then "after_receipt" else "idle"
  else if Accepted events then "waiting_integration"
  else if Received events then "after_receipt"
  else "unknown"

/-! ## The state follows the rules -/

/-- The state after some events. -/
def stateAfter (events : List RunEvent) : State := events.foldl State.apply {}

theorem mem_insertAsk {id a : Int} {asks : List Int} : a ∈ insertAsk id asks ↔ id = a ∨ a ∈ asks := by
  unfold insertAsk
  split
  next h =>
    refine ⟨.inr, fun ha => ?_⟩
    rcases ha with rfl | ha
    · exact h
    · exact ha
  next => rw [List.mem_orderedInsert, eq_comm]

theorem stateAfter_concat (events : List RunEvent) (event : RunEvent) :
    stateAfter (events ++ [event]) = (stateAfter events).apply event := by
  simp [stateAfter]

theorem watched_iff_sinceAt {phase : Phase} {events : List RunEvent} :
    Watched phase events ↔
      SinceAt (fun before e => e.said.begins phase ∨ e.said = .unsent ∧ Replaced phase before)
        (fun e => e.said.changesPhase) events := by
  constructor
  · intro h
    cases h with
    | begun before after hon hoff => exact ⟨before, _, after, rfl, .inl hon, hoff⟩
    | withdrawn before after hreplaced hon hoff => exact ⟨before, _, after, rfl, .inr ⟨hon, hreplaced⟩, hoff⟩
  · rintro ⟨before, event, after, rfl, hon | ⟨hon, hreplaced⟩, hoff⟩
    · exact .begun before after hon hoff
    · exact .withdrawn before after hreplaced hon hoff

theorem replaced_iff_sinceAt {phase : Phase} {events : List RunEvent} :
    Replaced phase events ↔
      SinceAt (fun before e => e.said.requests ∧ Watched phase before)
        (fun e => e.said.requests ∨ e.said = .unsent) events := by
  constructor
  · intro h
    cases h with
    | requested before after hwatched hon hoff => exact ⟨before, _, after, rfl, ⟨hon, hwatched⟩, hoff⟩
  · rintro ⟨before, event, after, rfl, ⟨hon, hwatched⟩, hoff⟩
    exact .requested before after hwatched hon hoff

theorem watched_concat {phase : Phase} {events : List RunEvent} {event : RunEvent} :
    Watched phase (events ++ [event]) ↔
      (event.said.begins phase ∨ event.said = .unsent ∧ Replaced phase events) ∨
        Watched phase events ∧ ¬event.said.changesPhase := by
  rw [watched_iff_sinceAt, sinceAt_concat, ← watched_iff_sinceAt]

theorem replaced_concat {phase : Phase} {events : List RunEvent} {event : RunEvent} :
    Replaced phase (events ++ [event]) ↔
      (event.said.requests ∧ Watched phase events) ∨
        Replaced phase events ∧ ¬(event.said.requests ∨ event.said = .unsent) := by
  rw [replaced_iff_sinceAt, sinceAt_concat, ← replaced_iff_sinceAt]

/-- The phase that the state keeps is the watched one, and the replaced one with it. -/
theorem phase_iff (events : List RunEvent) :
    (∀ phase, (stateAfter events).phase = some phase ↔ Watched phase events) ∧
      ∀ phase, (stateAfter events).replaced = some phase ↔ Replaced phase events := by
  induction events using List.reverseRecOn with
  | nil =>
      have hwatched (phase : Phase) : ¬Watched phase [] := fun h => not_sinceAt_nil (watched_iff_sinceAt.mp h)
      have hreplaced (phase : Phase) : ¬Replaced phase [] := fun h =>
        not_sinceAt_nil (replaced_iff_sinceAt.mp h)
      simp [stateAfter, hwatched, hreplaced]
  | append_singleton events event ih =>
      obtain ⟨ihwatched, ihreplaced⟩ := ih
      simp only [stateAfter_concat, watched_concat, replaced_concat, ← ihwatched, ← ihreplaced]
      cases h : event.said <;>
        simp [h, Said.begins, Said.requests,
          Said.changesPhase, Said.startsPhase, eq_comm]

theorem integrating_iff (events : List RunEvent) :
    (stateAfter events).integrating = true ↔ Integrating events := by
  refine flag_iff_since (fun s : State => s.integrating = true) (fun s e => ?_) (by simp) events
  cases h : e.said <;> simp [h]

theorem answered_iff (events : List RunEvent) :
    (stateAfter events).answered = true ↔ Answered events := by
  refine flag_iff_since (fun s : State => s.answered = true) (fun s e => ?_) (by simp) events
  cases h : e.said <;>
    simp [h, Said.answers, Said.startsPhase]

theorem background_iff (events : List RunEvent) :
    (stateAfter events).idle = some true ↔ Background events := by
  refine flag_iff_since (fun s : State => s.idle = some true) (fun s e => ?_) (by simp) events
  cases h : e.said <;>
    simp [h, Said.marksBackground,
      Said.marksQuiet, Said.startsPhase]

theorem accepted_iff (events : List RunEvent) :
    (stateAfter events).accepted = true ↔ Accepted events := by
  refine flag_iff_since (fun s : State => s.accepted = true) (fun s e => ?_) (by simp) events
  cases h : e.said <;> simp [h]

theorem received_iff (events : List RunEvent) :
    (stateAfter events).receipt = true ↔ Received events := by
  refine flag_iff_since (fun s : State => s.receipt = true) (fun s e => ?_) (by simp) events
  cases h : e.said <;> simp [h]

theorem idle_isSome_iff (events : List RunEvent) :
    (stateAfter events).idle.isSome = true ↔ Marked events := by
  refine flag_iff_since (fun s : State => s.idle.isSome = true) (fun s e => ?_) (by simp) events
  cases h : e.said <;>
    simp [h, Said.marks, Said.startsPhase]

theorem mem_openAsks_iff (id : Int) (events : List RunEvent) :
    id ∈ (stateAfter events).openAsks ↔ AskOpen id events := by
  refine flag_iff_since (fun s : State => id ∈ s.openAsks) (fun s e => ?_) (by simp) events
  cases h : e.said <;>
    simp [h, mem_insertAsk]

theorem nudged_marked (events : List RunEvent) :
    (stateAfter events).nudged = true → (stateAfter events).idle.isSome = true := by
  induction events using List.reverseRecOn with
  | nil => simp [stateAfter]
  | append_singleton events event ih =>
      rw [stateAfter_concat]
      cases h : event.said with
      | fixed | exited | validated | integrationStarted | integrationOver | askOpened | askAnswered
      | receiptObserved | unsent | nothing => simpa [h] using ih
      | _ => simp [h]

theorem insertAsk_ascending {asks : List Int} (h : asks.Pairwise (· < ·)) (id : Int) :
    (insertAsk id asks).Pairwise (· < ·) := by
  unfold insertAsk
  split
  next => exact h
  next hnew =>
    have hle : (asks.orderedInsert (· ≤ ·) id).Pairwise (· ≤ ·) :=
      List.Pairwise.orderedInsert id asks (h.imp Int.le_of_lt)
    have hnodup : (asks.orderedInsert (· ≤ ·) id).Nodup :=
      (List.perm_orderedInsert _ id asks).nodup_iff.mpr (List.nodup_cons.mpr ⟨hnew, h.imp fun h => h.ne⟩)
    exact (hle.and hnodup).imp fun ⟨hle, hne⟩ => lt_of_le_of_ne hle hne

theorem openAsks_ascending (events : List RunEvent) : (stateAfter events).openAsks.Pairwise (· < ·) := by
  induction events using List.reverseRecOn with
  | nil => exact .nil
  | append_singleton events event ih =>
      rw [stateAfter_concat]
      cases h : event.said with
      | askOpened id => simpa [h] using insertAsk_ascending ih id
      | askAnswered id => simpa [h] using ih.filter (id ≠ ·)
      | _ => simpa [h] using ih

/-! ## The gaps -/

/-- A gap after `events`, up to `next`, as the rules have it. -/
structure Explained (gap : Gap) (events : List RunEvent) (next : Option RunEvent) : Prop where
  reason : gap.reason = ruleFor events next
  phase : ∀ phase, gap.phase = some phase ↔
    Watched phase events ∧ gap.reason ∉ ["no_supervisor", "waiting_ask", "integrating"]
  confirmed : ∀ confirmed, gap.confirmed = some confirmed ↔
    gap.reason = "idle" ∧ (confirmed = true ↔ Marked events)
  asks : ∀ id, id ∈ gap.askIds ↔ gap.reason = "waiting_ask" ∧ AskOpen id events
  ascending : gap.askIds.Pairwise (· < ·)

theorem ruleFor_eq (events : List RunEvent) (next : Option RunEvent) :
    ruleFor events next =
      if next.any fun e => e.kind = "run_adopted" || e.kind = "run_recovered" then "no_supervisor"
      else if (stateAfter events).openAsks ≠ [] then "waiting_ask"
      else if (stateAfter events).integrating then "integrating"
      else if (stateAfter events).phase ≠ none then
        if (stateAfter events).idle = some true then "background"
        else if (stateAfter events).answered then "after_receipt" else "idle"
      else if (stateAfter events).accepted then "waiting_integration"
      else if (stateAfter events).receipt then "after_receipt"
      else "unknown" := by
  classical
  have hasks : (stateAfter events).openAsks ≠ [] ↔ ∃ id, AskOpen id events := by
    simp only [← mem_openAsks_iff]
    exact ⟨List.exists_mem_of_ne_nil _, fun ⟨_, h⟩ => List.ne_nil_of_mem h⟩
  have hphase : (stateAfter events).phase ≠ none ↔ ∃ phase, Watched phase events := by
    simp only [← (phase_iff events).1]
    exact Option.ne_none_iff_exists'
  have hnext : (next.any fun e => e.kind = "run_adopted" || e.kind = "run_recovered") = true ↔
      ∃ e ∈ next, e.kind = "run_adopted" ∨ e.kind = "run_recovered" := by
    cases next <;> simp
  refine (if_congr hnext rfl (if_congr hasks rfl (if_congr (integrating_iff events) rfl
    (if_congr hphase ?_ ?_)))).symm
  · exact if_congr (background_iff events) rfl (if_congr (answered_iff events) rfl rfl)
  · exact if_congr (accepted_iff events) rfl (if_congr (received_iff events) rfl rfl)

/-- The reason is the one the rules give, with what the program tells next to it. -/
theorem reason_explained (events : List RunEvent) (next : Option RunEvent) {gap : Gap}
    (hreason : gap.reason = "unknown") (hphase : gap.phase = none) (hconfirmed : gap.confirmed = none)
    (hasks : gap.askIds = []) : Explained ((stateAfter events).reason next gap) events next := by
  have hrule := ruleFor_eq events next
  have hmarked : ((stateAfter events).idle.isSome || (stateAfter events).nudged) = true ↔ Marked events := by
    rw [← idle_isSome_iff, Bool.or_eq_true]
    exact or_iff_left_of_imp (nudged_marked events)
  have hwatched := (phase_iff events).1
  have hopen (id : Int) := mem_openAsks_iff id events
  have hascending := openAsks_ascending events
  unfold State.reason
  generalize stateAfter events = s at *
  split
  next hadopted => exact ⟨by simp [hrule, hadopted], by simp [hphase], by simp [hconfirmed], by simp [hasks], by simp [hasks]⟩
  next hadopted =>
  rw [if_neg hadopted] at hrule
  split
  next hwaits =>
    rw [if_pos hwaits] at hrule
    exact ⟨hrule.symm, by simp [hphase], by simp [hconfirmed], by simp [hopen], hascending⟩
  next hwaits =>
  rw [if_neg hwaits] at hrule
  split
  next hintegrates =>
    rw [if_pos hintegrates] at hrule
    exact ⟨hrule.symm, by simp [hphase], by simp [hconfirmed], by simp [hasks], by simp [hasks]⟩
  next hintegrates =>
  rw [if_neg hintegrates] at hrule
  split
  next phase hphase =>
    rw [if_pos (by simp [hphase])] at hrule
    simp only [hphase, Option.some.injEq] at hwatched
    split
    next hbackground =>
      rw [if_pos hbackground] at hrule
      exact ⟨hrule.symm, by simp [hwatched], by simp [hconfirmed], by simp [hasks], by simp [hasks]⟩
    next hbackground =>
    rw [if_neg hbackground] at hrule
    split
    next hanswered =>
      rw [if_pos hanswered] at hrule
      exact ⟨hrule.symm, by simp [hwatched], by simp [hconfirmed], by simp [hasks], by simp [hasks]⟩
    next hanswered =>
      rw [if_neg hanswered] at hrule
      refine ⟨hrule.symm, by simp [hwatched], ?_, by simp [hasks], by simp [hasks]⟩
      intro confirmed
      rw [← hmarked]
      cases confirmed <;> simp
  next hnone =>
  rw [if_neg (by simp [hnone])] at hrule
  have hunwatched (phase : Phase) : ¬Watched phase events := by simp [← hwatched, hnone]
  split
  next haccepted =>
    rw [if_pos haccepted] at hrule
    exact ⟨hrule.symm, by simp [hphase, hunwatched], by simp [hconfirmed], by simp [hasks], by simp [hasks]⟩
  next haccepted =>
  rw [if_neg haccepted] at hrule
  split
  next hreceipt =>
    rw [if_pos hreceipt] at hrule
    exact ⟨hrule.symm, by simp [hphase, hunwatched], by simp [hconfirmed], by simp [hasks], by simp [hasks]⟩
  next hreceipt =>
    rw [if_neg hreceipt] at hrule
    exact ⟨by rw [hreason, hrule], by simp [hphase, hunwatched], by simp [hconfirmed, hreason], by simp [hasks, hreason],
      by simp [hasks]⟩

/-- A gap is the time from an event to the next, long enough to report. -/
structure Measured (minSecs : Int) (nowMs : Option Int) (event : RunEvent) (next : Option RunEvent)
    (gap : Gap) : Prop where
  afterEvent : gap.afterEvent = event.id
  beforeEvent : gap.beforeEvent = next.map (·.id)
  start : gap.start = event.createdAt
  stop : gap.stop = next.map (·.createdAt)
  secs : ∃ start stop, event.millis = some start ∧ endMillis nowMs next = some stop ∧
    gap.secs * 1000 ≤ stop - start ∧ stop - start < (gap.secs + 1) * 1000
  long : minSecs ≤ gap.secs ∧ 1 ≤ gap.secs

theorem reason_measured {minSecs : Int} {nowMs : Option Int} {event : RunEvent} {next : Option RunEvent}
    {gap : Gap} (h : Measured minSecs nowMs event next gap) (s : State) (other : Option RunEvent) :
    Measured minSecs nowMs event next (s.reason other gap) := by
  obtain ⟨hafter, hbefore, hstart, hstop, hsecs, hlong⟩ := h
  unfold State.reason
  repeat' split
  all_goals exact ⟨hafter, hbefore, hstart, hstop, hsecs, hlong⟩

theorem tdiv_bounds {span least : Int} (h : ¬span.tdiv 1000 < max least 1) :
    span.tdiv 1000 * 1000 ≤ span ∧ span < (span.tdiv 1000 + 1) * 1000 := by
  have hspan : 0 ≤ span := by
    by_contra hneg
    have hle : span.tdiv 1000 = -((-span) / 1000) := by
      rw [← Int.neg_neg span, Int.neg_tdiv, Int.tdiv_eq_ediv_of_nonneg (by omega), Int.neg_neg]
    omega
  rw [Int.tdiv_eq_ediv_of_nonneg hspan]
  omega

/-- A gap is reported from an event on exactly if both times are read and it is long enough. -/
theorem gapAfter_eq_some {minSecs : Int} {nowMs : Option Int} {s : State} {event : RunEvent}
    {next : Option RunEvent} {start stop : Int} (hstart : event.millis = some start)
    (hstop : endMillis nowMs next = some stop) (hlong : max minSecs 1 * 1000 ≤ stop - start) :
    ∃ gap, gapAfter minSecs nowMs s event next = some gap := by
  have hsecs : ¬(stop - start).tdiv 1000 < max minSecs 1 := by
    rw [Int.tdiv_eq_ediv_of_nonneg (by omega)]
    omega
  rw [gapAfter, hstart, hstop]
  exact ⟨_, if_neg hsecs⟩

theorem gapAfter_inv {minSecs : Int} {nowMs : Option Int} {s : State} {event : RunEvent}
    {next : Option RunEvent} {gap : Gap} (h : gapAfter minSecs nowMs s event next = some gap) :
    ∃ plain : Gap, Measured minSecs nowMs event next plain ∧ gap = s.reason next plain ∧
      plain.reason = "unknown" ∧ plain.phase = none ∧ plain.confirmed = none ∧ plain.askIds = [] := by
  unfold gapAfter at h
  obtain ⟨start, hstart, h⟩ := Option.bind_eq_some_iff.mp h
  obtain ⟨stop, hstop, h⟩ := Option.bind_eq_some_iff.mp h
  dsimp only at h
  split at h
  next => cases h
  next hlong =>
    cases h
    have hsecs := tdiv_bounds hlong
    exact ⟨_, ⟨rfl, rfl, rfl, rfl, ⟨start, stop, hstart, hstop, hsecs⟩, by dsimp only; omega⟩, rfl, rfl, rfl,
      rfl, rfl⟩

theorem gapAfter_measured {minSecs : Int} {nowMs : Option Int} {s : State} {event : RunEvent}
    {next : Option RunEvent} {gap : Gap} (h : gapAfter minSecs nowMs s event next = some gap) :
    Measured minSecs nowMs event next gap := by
  obtain ⟨plain, hplain, rfl, -⟩ := gapAfter_inv h
  exact reason_measured hplain s next

theorem gapAfter_explained {minSecs : Int} {nowMs : Option Int} {events : List RunEvent} {event : RunEvent}
    {next : Option RunEvent} {gap : Gap}
    (h : gapAfter minSecs nowMs (stateAfter events) event next = some gap) :
    Explained gap events next := by
  obtain ⟨plain, -, rfl, hreason, hphase, hconfirmed, hasks⟩ := gapAfter_inv h
  exact reason_explained events next hreason hphase hconfirmed hasks

/-- The gaps are those from each event on, in the state that the events up to it leave. -/
theorem mem_gapsFrom_iff {minSecs : Int} {nowMs : Option Int} {events : List RunEvent} {s : State}
    {gap : Gap} : gap ∈ gapsFrom minSecs nowMs s events ↔
      ∃ before event after, events = before ++ event :: after ∧
        gapAfter minSecs nowMs ((before ++ [event]).foldl State.apply s) event after.head? = some gap := by
  induction events generalizing s with
  | nil => simp [gapsFrom]
  | cons event events ih =>
      rw [gapsFrom, List.mem_append, ih, Option.mem_toList]
      constructor
      · rintro (h | ⟨before, other, after, rfl, h⟩)
        · exact ⟨[], event, events, rfl, h⟩
        · exact ⟨event :: before, other, after, rfl, h⟩
      · rintro ⟨before, other, after, hsplit, h⟩
        cases before with
        | nil =>
            cases hsplit
            exact .inl h
        | cons first before =>
            cases hsplit
            exact .inr ⟨before, other, after, rfl, h⟩

/-- Every gap is the time from an event of the run to its next one (or to now), with the reason that the
rules give on the events up to it; and every such time that is long enough, and both ends of which are
read, is a gap. -/
theorem gaps_follow_rules (events : List RunEvent) (minSecs : Int) (nowMs : Option Int) :
    (∀ gap ∈ gaps events minSecs nowMs, ∃ before event after, events = before ++ event :: after ∧
      Measured minSecs nowMs event after.head? gap ∧ Explained gap (before ++ [event]) after.head?) ∧
    ∀ before event after, events = before ++ event :: after →
      ∀ start stop, event.millis = some start → endMillis nowMs after.head? = some stop →
        max minSecs 1 * 1000 ≤ stop - start → ∃ gap ∈ gaps events minSecs nowMs,
          Measured minSecs nowMs event after.head? gap ∧
            Explained gap (before ++ [event]) after.head? := by
  constructor
  · intro gap hgap
    obtain ⟨before, event, after, hsplit, hgap⟩ := mem_gapsFrom_iff.mp hgap
    exact ⟨before, event, after, hsplit, gapAfter_measured hgap, gapAfter_explained hgap⟩
  · intro before event after hsplit start stop hstart hstop hlong
    obtain ⟨gap, hgap⟩ :=
      gapAfter_eq_some (s := stateAfter (before ++ [event])) hstart hstop hlong
    exact ⟨gap, mem_gapsFrom_iff.mpr ⟨before, event, after, hsplit, hgap⟩, gapAfter_measured hgap,
      gapAfter_explained hgap⟩

/-! ## No time is in two gaps -/

/-- From the first of some times to the last. -/
def span : List Int → Int
  | [] => 0
  | start :: times => (times.getLast?.getD start) - start

theorem span_cons_cons (start stop : Int) (times : List Int) :
    span (start :: stop :: times) = stop - start + span (stop :: times) := by
  simp only [span, List.getLast?_cons, Option.getD_some]
  omega

theorem span_le_cons {start : Int} {times : List Int} (h : (start :: times).Pairwise (· ≤ ·)) :
    span times ≤ span (start :: times) := by
  cases times with
  | nil => simp [span]
  | cons stop times =>
      have hle : start ≤ stop := List.rel_of_pairwise_cons h List.mem_cons_self
      rw [span_cons_cons]
      omega

/-- The times that are read of some events, and now. -/
def times (events : List RunEvent) (nowMs : Option Int) : List Int :=
  events.filterMap RunEvent.millis ++ nowMs.toList

theorem times_eq_cons {events : List RunEvent} {nowMs : Option Int} {stop : Int}
    (h : endMillis nowMs events.head? = some stop) : ∃ rest, times events nowMs = stop :: rest := by
  cases events with
  | nil =>
      rw [List.head?_nil, endMillis] at h
      exact ⟨[], by simp [times, h]⟩
  | cons event events =>
      rw [List.head?_cons, endMillis] at h
      exact ⟨_, by rw [times, List.filterMap_cons_some h]; rfl⟩

theorem gapsFrom_sum_le {minSecs : Int} {nowMs : Option Int} {events : List RunEvent} {s : State}
    (h : (times events nowMs).Pairwise (· ≤ ·)) :
    ((gapsFrom minSecs nowMs s events).map Gap.secs).sum * 1000 ≤ span (times events nowMs) := by
  induction events generalizing s with
  | nil => cases nowMs <;> simp [gapsFrom, times, span]
  | cons event events ih =>
      have htimes : times (event :: events) nowMs = event.millis.toList ++ times events nowMs := by
        unfold times
        cases hmillis : event.millis with
        | none => rw [List.filterMap_cons_none hmillis]; rfl
        | some start => rw [List.filterMap_cons_some hmillis]; rfl
      rw [htimes] at h ⊢
      have hrest := ih (s := s.apply event) (List.pairwise_append.mp h).2.1
      rw [gapsFrom, List.map_append, List.sum_append]
      cases hgap : gapAfter minSecs nowMs (s.apply event) event events.head? with
      | none =>
          have hle : span (times events nowMs) ≤ span (event.millis.toList ++ times events nowMs) := by
            cases hmillis : event.millis with
            | none => exact le_rfl
            | some start =>
                rw [hmillis] at h
                exact span_le_cons h
          simp only [Option.toList_none, List.map_nil, List.sum_nil]
          omega
      | some gap =>
          obtain ⟨start, stop, hstart, hstop, hsecs, -⟩ := (gapAfter_measured hgap).secs
          obtain ⟨rest, hcons⟩ := times_eq_cons hstop
          rw [hcons] at hrest ⊢
          rw [hstart]
          show _ ≤ span (start :: stop :: rest)
          rw [span_cons_cons]
          simp only [Option.toList_some, List.map_cons, List.map_nil, List.sum_singleton]
          omega

/-- The gaps add up to no more than the time from the run's first event to its last one (or to now). -/
theorem gaps_sum_le (events : List RunEvent) (minSecs : Int) (nowMs : Option Int)
    (hascending : (times events nowMs).Pairwise (· ≤ ·)) :
    ((gaps events minSecs nowMs).map Gap.secs).sum * 1000 ≤ span (times events nowMs) :=
  gapsFrom_sum_le hascending

/-- The worker idles for six minutes, and then the run is integrated in one. -/
def exampleRun : List RunEvent := [
  { id := 1, kind := "agent_started", createdAt := "2026-09-24T00:00:00.000Z" },
  { id := 2, kind := "receipt_observed", createdAt := "2026-09-24T00:06:00.500Z" },
  { id := 3, kind := "session_exited", createdAt := "2026-09-24T00:06:01.000Z" },
  { id := 4, kind := "integration_started", createdAt := "2026-09-24T00:06:01.000Z" },
  { id := 5, kind := "run_integrated", createdAt := "2026-09-24T00:07:01.000Z" }]

theorem gaps_sum_le_example :
    ((gaps exampleRun 60 none).map Gap.secs).sum * 1000 ≤ span (times exampleRun none) :=
  gaps_sum_le exampleRun 60 none (by decide)

end Dagq.Timeline
