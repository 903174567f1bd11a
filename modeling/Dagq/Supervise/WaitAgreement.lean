/-
# Dagq.Supervise.WaitAgreement -- a slot's wait and the record of its run say the same.

Whatever a supervisor does to a slot, the events it records move the record of the run along: the wait
they rebuild is the slot's, what the ended waits held is taken as consumed, and what was deferred is not
deferred again.  So a run that is handed over or adopted goes on in the wait it was in, and no ask that a
wait ended with starts another.  The one write whose failure the supervisor only logs, the return to a
slot, has to succeed.
-/
import Dagq.Supervise.WaitRecord
import Mathlib.Tactic.Tauto

namespace Dagq.Waits

open Lib

/-! ## Agreement -/

/-- What a restarted supervisor sees of a wait, apart from its times. -/
def WaitState.view (state : WaitState) : List (AskId × AskKind) × Option WaitCause :=
  (state.held, state.ended.map (·.2))

def Waiting.view (waiting : Waiting) : List (AskId × AskKind) × Option WaitCause :=
  (waiting.asks, waiting.ended.map (·.2))

/-- A slot and the record of its run say the same. -/
structure Agrees (slot : Slot) (events : List RunEvent) : Prop where
  wait : (WaitState.of events).map WaitState.view = slot.waiting.map Waiting.view
  settled : ∀ a ∈ (tally events).settled, a ∈ slot.consumed
  consumed : ∀ a ∈ slot.consumed, a ∈ consumedAsks events
  deferredSince : ∀ a ∈ (tally events).deferred, a ∈ slot.deferred
  deferred : ∀ a ∈ slot.deferred, a ∈ deferredAsks events

section Agrees

variable {slot : Slot} {events : List RunEvent} {event : RunEvent}

theorem Agrees.no_wait (h : Agrees slot events) (hw : slot.waiting = none) :
    WaitState.of events = none := by
  have hwait := h.wait
  rw [hw] at hwait
  exact Option.map_eq_none_iff.mp hwait

theorem Agrees.state (h : Agrees slot events) {waiting : Waiting} (hw : slot.waiting = some waiting) :
    ∃ state, WaitState.of events = some state ∧ state.held = waiting.asks ∧
      state.ended.map (·.2) = waiting.ended.map (·.2) := by
  have hwait := h.wait
  rw [hw] at hwait
  obtain ⟨state, hstate, hview⟩ := Option.map_eq_some_iff.mp hwait
  exact ⟨state, hstate, congrArg Prod.fst hview, congrArg Prod.snd hview⟩

theorem ended_iff {state : WaitState} {waiting : Waiting}
    (h : state.ended.map (·.2) = waiting.ended.map (·.2)) :
    state.ended = none ↔ waiting.ended = none := by
  cases hs : state.ended <;> cases hw : waiting.ended <;> simp [hs, hw] at h ⊢

/-- An event that does not lose the run keeps a slot in agreement when the wait, the consumed and the
deferred asks follow it. -/
theorem Agrees.next (h : Agrees slot events) {slot' : Slot} (hlost : losesRun event.kind = false)
    (hwait : (WaitState.of (events ++ [event])).map WaitState.view = slot'.waiting.map Waiting.view)
    (hsettles : ∀ a ∈ (tally events).settles event, a ∈ slot'.consumed)
    (hgrow : ∀ a ∈ slot.consumed, a ∈ slot'.consumed)
    (hconsumed : ∀ a ∈ slot'.consumed, a ∈ slot.consumed ∨ a ∈ consumedAsks (events ++ [event]))
    (hdeferred : slot'.deferred = slot.deferred ++ Tally.defers event) :
    Agrees slot' (events ++ [event]) := by
  refine ⟨hwait, fun a ha => ?_, fun a ha => ?_, fun a ha => ?_, fun a ha => ?_⟩
  · simp only [tally_concat, Tally.step, hlost, Bool.false_eq_true, if_false, List.mem_append] at ha
    rcases ha with ha | ha
    · exact hgrow a (h.settled a ha)
    · exact hsettles a ha
  · rcases hconsumed a ha with ha | ha
    · exact mem_consumedAsks_concat.mpr (.inl (h.consumed a ha))
    · exact ha
  · simp only [tally_concat, Tally.step, hlost, Bool.false_eq_true, if_false, List.mem_append] at ha
    rw [hdeferred, List.mem_append]
    exact ha.imp_left (h.deferredSince a)
  · rw [hdeferred, List.mem_append] at ha
    exact mem_deferredAsks_concat.mpr (ha.imp_left (h.deferred a))

/-- An event that has nothing to do with a wait keeps every slot in agreement. -/
theorem Agrees.neutral (h : Agrees slot events) (hn : event.isNeutral = true) :
    Agrees slot (events ++ [event]) := by
  have htally : tally (events ++ [event]) = tally events := tally_of_isNeutral hn
  refine ⟨?_, ?_, fun a ha => ?_, ?_, fun a ha => ?_⟩
  · rw [← tally_wait, htally, tally_wait]
    exact h.wait
  · rw [htally]
    exact h.settled
  · exact mem_consumedAsks_concat.mpr (.inl (h.consumed a ha))
  · rw [htally]
    exact h.deferredSince
  · exact mem_deferredAsks_concat.mpr (.inl (h.deferred a ha))

theorem Agrees.phase (h : Agrees slot events) (phase : Phase) : Agrees { slot with phase } events :=
  ⟨h.wait, h.settled, h.consumed, h.deferredSince, h.deferred⟩

/-! ### Event by event -/

theorem Agrees.starts (h : Agrees slot events) (hw : slot.waiting = none) {ask : AskId}
    {kind : AskKind} (hkind : event.kind = runWaitingStarted)
    (hask : askOf event.payload = some (ask, kind.text)) (hread : AskKind.parse kind.text = some kind)
    (hfree : ask ∉ slot.consumed) (now : Int) :
    Agrees { slot with waiting := some { asks := [(ask, kind)], startedAt := now } }
      (events ++ [event]) ∧ Legal events event := by
  constructor
  · refine h.next (by simp [hkind]) ?_ (fun a ha => ?_) (fun _ ha => ha) (fun _ ha => .inl ha) ?_
    · rw [WaitState.of_concat, if_pos hkind]
      simp [WaitState.view, Waiting.view, WaitState.held, WaitState.start, hask, hread]
    · simp [Tally.settles, hkind] at ha
    · simp [Tally.defers, hkind]
  · refine ⟨fun _ => ⟨h.no_wait hw, fun a ha hsettled => hfree ?_⟩, ?_, ?_, ?_, ?_⟩
    · rw [hask] at ha
      cases ha
      exact h.settled _ hsettled
    all_goals simp [hkind]

theorem Agrees.adds (h : Agrees slot events) {waiting : Waiting} (hw : slot.waiting = some waiting)
    (hlasts : waiting.ended = none) {ask : AskId} {kind : AskKind}
    (hkind : event.kind = runWaitingAskAdded)
    (hask : askOf event.payload = some (ask, kind.text)) (hread : AskKind.parse kind.text = some kind)
    (hfree : ask ∉ slot.consumed) (hnew : ask ∉ waiting.asks.map (·.1)) :
    Agrees { slot with waiting := some { waiting with asks := waiting.asks ++ [(ask, kind)] } }
      (events ++ [event]) ∧ Legal events event := by
  obtain ⟨state, hstate, hheld, hended⟩ := h.state hw
  constructor
  · refine h.next (by simp [hkind]) ?_ (fun a ha => ?_) (fun _ ha => ha) (fun _ ha => .inl ha) ?_
    · rw [WaitState.of_concat, if_neg (by simp [hkind]), hstate]
      have hgrown : ({ state with asks := state.asks ++ [(ask, kind.text)] } : WaitState).held =
          state.held ++ [(ask, kind)] := by
        simp [WaitState.held, List.filterMap_append, hread]
      simp [WaitState.step, hkind, hask, WaitState.view, Waiting.view, hgrown, hheld, hended]
    · simp [Tally.settles, hkind] at ha
    · simp [Tally.defers, hkind]
  · refine ⟨?_, fun _ => ⟨state, hstate, (ended_iff hended).mpr hlasts, fun a ha => ?_⟩, ?_, ?_, ?_⟩
    · simp [hkind]
    · rw [hask] at ha
      cases ha
      exact ⟨fun hsettled => hfree (h.settled _ hsettled), by rwa [hheld]⟩
    all_goals simp [hkind]

/-- The end of a wait, the asks it held consumed. -/
theorem Agrees.ends (h : Agrees slot events) {waiting : Waiting} (hw : slot.waiting = some waiting)
    (hlasts : waiting.ended = none) {cause : WaitCause} (hkind : event.kind = runWaitingEnded)
    (hcause : event.payload.cause = some cause.text) (hstays : cause.leavesTheRun = false) (now : Int) :
    Agrees { slot with
      consumed := slot.consumed ++ waiting.asks.map (·.1)
      waiting := some { waiting with ended := some (now, cause) } } (events ++ [event]) ∧
      Legal events event := by
  obtain ⟨state, hstate, hheld, hended⟩ := h.state hw
  have hopen : state.ended = none := (ended_iff hended).mpr hlasts
  have hcause : WaitState.causeOf event = cause := by simp [WaitState.causeOf, hcause]
  constructor
  · refine h.next (by simp [hkind]) ?_ (fun a ha => ?_) (fun _ ha => List.mem_append_left _ ha)
      (fun a ha => ?_) (by simp [Tally.defers, hkind])
    · rw [WaitState.of_concat, if_neg (by simp [hkind]), hstate]
      have hsame (ended : Option (Int × WaitCause)) :
          ({ state with ended } : WaitState).held = state.held := rfl
      simp [WaitState.step, hkind, hopen, hcause, hstays, WaitState.view, Waiting.view, hsame, hheld]
    · obtain ⟨-, state', hstate', -, ask, hask, rfl⟩ := Tally.mem_settles ha
      rw [tally_wait, hstate, Option.some.injEq] at hstate'
      subst hstate'
      exact List.mem_append_right _ (List.mem_map_of_mem (hheld ▸ hask))
    · refine (List.mem_append.mp ha).imp_right fun ha => mem_consumedAsks_concat.mpr (.inr ⟨hkind, ?_⟩)
      obtain ⟨ask, hask, rfl⟩ := List.mem_map.mp ha
      rw [← hheld] at hask
      obtain ⟨kind, hmem⟩ := WaitState.mem_asks_of_held hask
      exact ⟨(ask.1, kind), by rwa [current_of_wait hstate hopen], rfl⟩
  · refine ⟨?_, ?_, fun _ => ⟨state, hstate, hopen⟩, ?_, ?_⟩
    all_goals simp [hkind]

/-- The end of a wait that gives its asks back. -/
theorem Agrees.changes_phase (h : Agrees slot events) {waiting : Waiting}
    (hw : slot.waiting = some waiting) (hlasts : waiting.ended = none)
    (hkind : event.kind = runWaitingEnded)
    (hcause : event.payload.cause = some WaitCause.phaseChanged.text) (now : Int) :
    Agrees { slot with waiting := some { waiting with ended := some (now, .phaseChanged) } }
      (events ++ [event]) ∧ Legal events event := by
  obtain ⟨state, hstate, hheld, hended⟩ := h.state hw
  have hopen : state.ended = none := (ended_iff hended).mpr hlasts
  have hcause : WaitState.causeOf event = .phaseChanged := by simp [WaitState.causeOf, hcause]
  constructor
  · refine h.next (by simp [hkind]) ?_ (fun a ha => ?_) (fun _ ha => ha) (fun _ ha => .inl ha)
      (by simp [Tally.defers, hkind])
    · rw [WaitState.of_concat, if_neg (by simp [hkind]), hstate]
      have hsame (ended : Option (Int × WaitCause)) :
          ({ state with ended } : WaitState).held = state.held := rfl
      simp [WaitState.step, hkind, hopen, hcause, WaitCause.leavesTheRun, WaitState.view, Waiting.view,
        hsame, hheld]
    · simp [Tally.settles, hcause] at ha
  · refine ⟨?_, ?_, fun _ => ⟨state, hstate, hopen⟩, ?_, ?_⟩
    all_goals simp [hkind]

theorem Agrees.regains (h : Agrees slot events) {waiting : Waiting}
    (hw : slot.waiting = some waiting) (hended : waiting.ended ≠ none)
    (hkind : event.kind = runSlotRegained) :
    Agrees { slot with waiting := none } (events ++ [event]) ∧ Legal events event := by
  obtain ⟨state, hstate, -, hsame⟩ := h.state hw
  constructor
  · refine h.next (by simp [hkind]) ?_ (fun a ha => ?_) (fun _ ha => ha) (fun _ ha => .inl ha)
      (by simp [Tally.defers, hkind])
    · rw [WaitState.of_concat, if_neg (by simp [hkind]), hstate]
      simp [WaitState.step, hkind]
    · simp [Tally.settles, hkind] at ha
  · refine ⟨?_, ?_, ?_, fun _ => ⟨state, hstate, fun hopen => hended ?_⟩, ?_⟩
    case refine_4 => exact (ended_iff hsame).mp hopen
    all_goals simp [hkind]

theorem Agrees.defers (h : Agrees slot events) {ask : AskId} {kind : String}
    (hkind : event.kind = runWaitingDeferred) (hask : askOf event.payload = some (ask, kind))
    (hfree : ask ∉ slot.deferred) :
    Agrees { slot with deferred := slot.deferred ++ [ask] } (events ++ [event]) ∧
      Legal events event := by
  constructor
  · refine h.next (by simp [hkind]) ?_ (fun a ha => ?_) (fun _ ha => ha) (fun _ ha => .inl ha)
      (by simp [Tally.defers, hkind, hask])
    · rw [WaitState.of_concat, if_neg (by simp [hkind]), ← h.wait]
      cases WaitState.of events with
      | none => rfl
      | some state => simp [WaitState.step, hkind]
    · simp [Tally.settles, hkind] at ha
  · refine ⟨?_, ?_, ?_, ?_, fun _ a ha hsince => hfree ?_⟩
    case refine_5 =>
      rw [hask] at ha
      cases ha
      exact h.deferredSince _ hsince
    all_goals simp [hkind]

end Agrees

/-! ## What a step does to a slot -/

/-- What an event records. -/
def writtenOf (event : RunEvent) : Written := (event.kind, event.payload)

theorem exists_events (written : List Written) : ∃ events : List RunEvent,
    events.map writtenOf = written :=
  ⟨written.map fun (kind, payload) => { id := 0, kind, payload, createdAt := "" }, by
    simp [writtenOf, Function.comp_def]⟩

/-- What becomes of the slot of `run` and what is recorded on the run keep them in agreement, and the
record orderly. -/
structure Keeps (run : RunId) (events : List RunEvent) (r : Slot × List Written) : Prop where
  run_eq : r.1.run = run
  agrees : ∀ new : List RunEvent, new.map writtenOf = r.2 → Agrees r.1 (events ++ new)
  legal : ∀ new : List RunEvent, new.map writtenOf = r.2 → LegalFrom events new

section Keeps

variable {run : RunId} {events : List RunEvent} {slot slot₁ slot₂ : Slot} {w₁ w₂ : List Written}

theorem Keeps.nothing (h : Agrees slot events) : Keeps slot.run events (slot, []) where
  run_eq := rfl
  agrees new hnew := by
    rw [List.map_eq_nil_iff.mp hnew, List.append_nil]
    exact h
  legal new hnew := by
    rw [List.map_eq_nil_iff.mp hnew]
    trivial

theorem Keeps.single {w : Written} (hrun : slot.run = run)
    (h : ∀ event : RunEvent, event.kind = w.1 → event.payload = w.2 →
      Agrees slot (events ++ [event]) ∧ Legal events event) : Keeps run events (slot, [w]) := by
  have hone (new : List RunEvent) (hnew : new.map writtenOf = [w]) :
      ∃ event, new = [event] ∧ event.kind = w.1 ∧ event.payload = w.2 := by
    obtain ⟨event, rfl, hevent⟩ := List.map_eq_singleton_iff.mp hnew
    exact ⟨event, rfl, congrArg Prod.fst hevent, congrArg Prod.snd hevent⟩
  refine ⟨hrun, fun new hnew => ?_, fun new hnew => ?_⟩
  · obtain ⟨event, rfl, hkind, hpayload⟩ := hone new hnew
    exact (h event hkind hpayload).1
  · obtain ⟨event, rfl, hkind, hpayload⟩ := hone new hnew
    exact ⟨(h event hkind hpayload).2, trivial⟩

/-- One thing after the other. -/
theorem Keeps.trans (h₁ : Keeps run events (slot₁, w₁))
    (h₂ : ∀ new, Agrees slot₁ (events ++ new) → Keeps run (events ++ new) (slot₂, w₂)) :
    Keeps run events (slot₂, w₁ ++ w₂) := by
  refine ⟨?_, fun new hnew => ?_, fun new hnew => ?_⟩
  · obtain ⟨new, hnew⟩ := exists_events w₁
    exact (h₂ new (h₁.agrees new hnew)).run_eq
  all_goals obtain ⟨new₁, new₂, rfl, hnew₁, hnew₂⟩ := List.map_eq_append_iff.mp hnew
  · rw [← List.append_assoc]
    exact (h₂ new₁ (h₁.agrees new₁ hnew₁)).agrees new₂ hnew₂
  · exact legalFrom_append.mpr
      ⟨h₁.legal new₁ hnew₁, (h₂ new₁ (h₁.agrees new₁ hnew₁)).legal new₂ hnew₂⟩

theorem Slot.regainSlot_keeps (h : Agrees slot events) (parallel used : Nat) (now : Int)
    (hw : ∀ waiting, slot.waiting = some waiting → waiting.ended ≠ none) :
    Keeps slot.run events (regainSlot parallel used slot now) := by
  unfold regainSlot
  split
  next waiting hwaiting =>
    exact .single rfl fun event hkind _ => h.regains hwaiting (hw waiting hwaiting) hkind
  next => exact .nothing h

theorem Slot.endWait_keeps (h : Agrees slot events) (hnow : slot.waitingNow = true)
    (parallel used : Nat) {cause : WaitCause} (hstays : cause.leavesTheRun = false)
    (ask : Option (AskId × AskKind)) (now : Int) :
    Keeps slot.run events (slot.endWait parallel used cause ask now) := by
  unfold endWait
  split
  next => exact .nothing h
  next waiting hwaiting =>
    have hlasts : waiting.ended = none := by simpa [waitingNow, hwaiting] using hnow
    have hended : Keeps slot.run events ({ slot with
        consumed := slot.consumed ++ waiting.asks.map (·.1)
        waiting := some { waiting with ended := some (now, cause) } },
        [endedEvent waiting.startedAt cause ask now]) :=
      .single rfl fun event hkind hpayload =>
        h.ends hwaiting hlasts hkind (by rw [hpayload]; rfl) hstays now
    dsimp only
    split
    next =>
      exact hended.trans fun new hagrees => regainSlot_keeps hagrees parallel (used + 1) now
        fun waiting' hwaiting' => by cases hwaiting'; exact Option.some_ne_none _
    next => exact hended

/-- A wait that lasts still lasts with one more ask. -/
theorem Slot.addWaitingAsk_waitingNow (hnow : slot.waitingNow = true) (phase : WaitPhase) (ask : RunAsk) :
    (addWaitingAsk phase slot ask).1.waitingNow = true := by
  unfold addWaitingAsk
  split
  · exact hnow
  next waiting hwaiting =>
    split
    · exact hnow
    · simpa [waitingNow, hwaiting] using hnow

theorem Slot.addWaitingAsk_keeps (h : Agrees slot events) (hnow : slot.waitingNow = true)
    (phase : WaitPhase) (ask : RunAsk) : Keeps slot.run events (addWaitingAsk phase slot ask) := by
  unfold addWaitingAsk
  split
  next => exact .nothing h
  next waiting hwaiting =>
    have hlasts : waiting.ended = none := by simpa [waitingNow, hwaiting] using hnow
    split
    next => exact .nothing h
    next hadds =>
      simp only [Bool.or_eq_true, Bool.not_eq_true', decide_eq_true_eq, not_or, Bool.not_eq_false]
        at hadds
      obtain ⟨⟨⟨-, htable⟩, hfree⟩, hnew⟩ := hadds
      refine .single rfl fun event hkind hpayload => h.adds hwaiting hlasts hkind (by rw [hpayload]; rfl)
        (parse_text_of_waitsFor htable) hfree ?_
      simpa using hnew

theorem Slot.addWaitingAsks_keeps (phase : WaitPhase) (asks : List RunAsk) (h : Agrees slot events)
    (hnow : slot.waitingNow = true) : Keeps slot.run events (addWaitingAsks phase slot asks) ∧
      (addWaitingAsks phase slot asks).1.waitingNow = true := by
  induction asks generalizing slot events with
  | nil => exact ⟨.nothing h, hnow⟩
  | cons ask asks ih =>
      have hfirst := addWaitingAsk_keeps h hnow phase ask
      have hlasts := addWaitingAsk_waitingNow hnow phase ask
      obtain ⟨new, hnew⟩ := exists_events (addWaitingAsk phase slot ask).2
      refine ⟨hfirst.trans fun new hagrees => ?_, (ih (hfirst.agrees new hnew) hlasts).2⟩
      have hrest : Keeps (addWaitingAsk phase slot ask).1.run (events ++ new)
          (addWaitingAsks phase (addWaitingAsk phase slot ask).1 asks) := (ih hagrees hlasts).1
      rwa [hfirst.run_eq] at hrest

/-- No look finds that a run waiting for a person ended or lost its lease. -/
theorem judge_stays {phase : WaitPhase} {watch : Phase} {held : List (AskId × AskKind)} {look : Look}
    {cause : WaitCause} {ask : Option (AskId × AskKind)} (h : judge phase watch held look = some (cause, ask)) :
    cause.leavesTheRun = false := by
  have hdialog {screen : Screen} (h : dialogEnded screen = some cause) : cause.leavesTheRun = false := by
    unfold dialogEnded at h
    split_ifs at h <;> cases h <;> rfl
  unfold judge at h
  dsimp only at h
  split_ifs at h
  · cases h; rfl
  · cases h; rfl
  · cases h; rfl
  · obtain ⟨held, -, h⟩ := Option.bind_eq_some_iff.mp h
    obtain ⟨cause', hcause, h⟩ := Option.bind_eq_some_iff.mp h
    cases h
    obtain ⟨screen, -, hscreen⟩ := Option.bind_eq_some_iff.mp hcause
    exact hdialog hscreen

theorem Slot.watchLive_keeps (h : Agrees slot events) (hnow : slot.waitingNow = true)
    (parallel used : Nat) (phase : WaitPhase) (look : Look) :
    Keeps slot.run events (slot.watchLive parallel used phase look) := by
  unfold watchLive
  split
  · exact .nothing h
  split
  · exact .nothing h
  generalize hseen : (if look.pulse = .silent then { slot with phase := slot.phase.silenced } else slot)
    = seen
  have hsame : seen.run = slot.run ∧ seen.waitingNow = true ∧ Agrees seen events := by
    subst hseen
    split
    · exact ⟨rfl, hnow, h.phase _⟩
    · exact ⟨rfl, hnow, h⟩
  obtain ⟨hrun, hnow, h⟩ := hsame
  rw [← hrun]
  dsimp only
  split
  · exact endWait_keeps h hnow parallel used rfl none look.now
  split
  · exact endWait_keeps h hnow parallel used rfl none look.now
  obtain ⟨hadded, hlasts⟩ := addWaitingAsks_keeps phase look.unclosed h hnow
  split
  next => exact hadded
  next cause ask hjudge =>
    refine hadded.trans fun new hagrees => ?_
    rw [← hadded.run_eq]
    exact endWait_keeps hagrees hlasts parallel used (judge_stays hjudge) ask look.now

theorem Slot.watchWaiting_keeps (h : Agrees slot events) (parallel used : Nat) (look : Look)
    {r : Slot × List Written} (hr : slot.watchWaiting parallel used look = some r) :
    Keeps slot.run events r := by
  unfold watchWaiting at hr
  split_ifs at hr with _ hnow
  · cases hr
    exact .nothing h
  all_goals
    simp only [Bool.not_eq_true', Bool.not_eq_false] at hnow
    cases hr
  · exact endWait_keeps h hnow parallel used rfl none look.now
  · exact watchLive_keeps h hnow parallel used _ look

/-- What is rebuilt of a run agrees with its record. -/
theorem Supervisor.restoreWaiting_keeps (sv : Supervisor) (slot : Slot) (hnew : slot.waiting = none)
    (asWaiting : Bool) (now : Int) :
    Keeps slot.run (runEvents sv.log slot.run) (sv.restoreWaiting slot asWaiting now) := by
  unfold restoreWaiting
  generalize runEvents sv.log slot.run = events
  have hbase (waiting : Option Waiting)
      (hwait : (WaitState.of events).map WaitState.view = waiting.map Waiting.view) :
      Agrees { slot with
        consumed := consumedAsks events, deferred := deferredAsks events, waiting } events :=
    ⟨hwait, fun _ => settled_subset_consumed, fun _ => id, fun _ => deferred_subset, fun _ => id⟩
  dsimp only
  split
  next hof => exact .nothing (hbase slot.waiting (by rw [hof, hnew]; rfl))
  next state hof =>
    let waiting : Waiting := {
      asks := state.held
      startedAt := state.sinceMs / 1000
      ended := state.ended.map fun ended => (ended.1 / 1000, ended.2) }
    have hrebuilt := hbase (some waiting) (by
      rw [hof]
      simp [WaitState.view, Waiting.view, waiting, Function.comp_def])
    split
    next => exact .nothing hrebuilt
    next =>
      split
      next hlasts =>
        have hlasts : waiting.ended = none := Option.isNone_iff_eq_none.mp hlasts
        have hchanged : Keeps slot.run events ({ slot with
            consumed := consumedAsks events
            deferred := deferredAsks events
            waiting := some { waiting with ended := some (now, .phaseChanged) } },
            [Slot.endedEvent waiting.startedAt .phaseChanged none now]) :=
          .single rfl fun event hkind hpayload =>
            hrebuilt.changes_phase rfl hlasts hkind (by rw [hpayload]; rfl) now
        exact hchanged.trans fun new hagrees => Slot.regainSlot_keeps hagrees _ _ now
          fun waiting' hwaiting' => by cases hwaiting'; exact Option.some_ne_none _
      next hended =>
        refine Slot.regainSlot_keeps hrebuilt _ _ now fun waiting' hwaiting' hlasts => hended ?_
        cases hwaiting'
        exact Option.isNone_iff_eq_none.mpr hlasts

end Keeps

/-! ## The supervisor -/

/-- Every slot agrees with the record of its run, and if `p` holds every record is orderly. -/
structure Sound (p : Prop) (sv : Supervisor) : Prop where
  runs : (sv.slots.map Slot.run).Nodup
  agrees : ∀ slot ∈ sv.slots, Agrees slot (runEvents sv.log slot.run)
  orderly : p → ∀ run, Orderly (runEvents sv.log run)

section Sound

variable {p : Prop} {sv : Supervisor} {run : RunId}

theorem runEvents_append (log new : List RunEvent) (run : RunId) :
    runEvents (log ++ new) run = runEvents log run ++ runEvents new run :=
  List.filter_append ..

/-- What is recorded on a run stands at the end of its record and in no other. -/
theorem Supervisor.runEvents_record (sv : Supervisor) (run : RunId) (task : TaskId) (stamp : String)
    (written : List Written) : ∃ new, new.map writtenOf = written ∧
      runEvents (sv.record run task stamp written).log run = runEvents sv.log run ++ new ∧
      ∀ other, other ≠ run →
        runEvents (sv.record run task stamp written).log other = runEvents sv.log other := by
  obtain ⟨new, hlog, hnew, hof⟩ : ∃ new, (sv.record run task stamp written).log = sv.log ++ new ∧
      new.map writtenOf = written ∧ ∀ event ∈ new, event.runId = some run := by
    refine ⟨_, rfl, ?_, fun event hevent => ?_⟩
    · rw [List.map_map]
      exact List.zipIdx_map_fst 0 written
    · obtain ⟨_, -, rfl⟩ := List.mem_map.mp hevent
      rfl
  refine ⟨new, hnew, ?_, fun other hother => ?_⟩
  · rw [hlog, runEvents_append]
    congr 1
    exact List.filter_eq_self.mpr fun event hevent => by simp [hof event hevent]
  · rw [hlog, runEvents_append, List.append_right_eq_self, runEvents, List.filter_eq_nil_iff]
    intro event hevent
    simpa [hof event hevent] using hother.symm

/-- A slot changes as what is recorded on its run says. -/
theorem Sound.set (h : Sound p sv) {index : Nat} {slot slot' : Slot} {written : List Written}
    (hslot : sv.slots[index]? = some slot)
    (hkeeps : Keeps slot.run (runEvents sv.log slot.run) (slot', written)) (task : TaskId)
    (stamp : String) :
    Sound p { sv.record slot.run task stamp written with slots := sv.slots.set index slot' } := by
  obtain ⟨new, hnew, hown, hothers⟩ := sv.runEvents_record slot.run task stamp written
  have hruns : (sv.slots.set index slot').map Slot.run = sv.slots.map Slot.run := by
    rw [List.map_set]
    have hn : (sv.slots.map Slot.run)[index]? = some slot'.run := by
      rw [List.getElem?_map, hslot, Option.map_some, hkeeps.run_eq]
    obtain ⟨hlt, heq⟩ := List.getElem?_eq_some_iff.mp hn
    rw [← heq, List.set_getElem_self]
  refine ⟨by rw [hruns]; exact h.runs, fun slot₀ hmem => ?_, fun hp other => ?_⟩
  · obtain ⟨j, hj⟩ := List.mem_iff_getElem?.mp hmem
    by_cases hij : index = j
    · subst hij
      have hlt : index < sv.slots.length := (List.getElem?_eq_some_iff.mp hslot).1
      rw [List.getElem?_set_self hlt] at hj
      cases hj
      rw [hkeeps.run_eq]
      dsimp only
      rw [hown]
      exact hkeeps.agrees new hnew
    · rw [List.getElem?_set_ne hij] at hj
      have hne : slot₀.run ≠ slot.run := by
        intro heq
        refine hij ((List.getElem?_inj ?_ h.runs).mp ?_)
        · simpa using (List.getElem?_eq_some_iff.mp hslot).1
        · rw [List.getElem?_map, List.getElem?_map, hslot, hj, Option.map_some, Option.map_some, heq]
      dsimp only
      rw [hothers _ hne]
      exact h.agrees slot₀ (List.mem_of_getElem? hj)
  · dsimp only
    by_cases hother : other = slot.run
    · subst hother
      rw [hown]
      exact orderly_append.mpr ⟨h.orderly hp _, hkeeps.legal new hnew⟩
    · rw [hothers _ hother]
      exact h.orderly hp other

/-- A run comes into a slot that agrees with its record. -/
theorem Sound.push (h : Sound p sv) (hfresh : run ∉ sv.slots.map Slot.run) {slot : Slot}
    {written : List Written} (hkeeps : Keeps run (runEvents sv.log run) (slot, written)) (task : TaskId)
    (stamp : String) :
    Sound p { sv.record run task stamp written with slots := sv.slots ++ [slot] } := by
  obtain ⟨new, hnew, hown, hothers⟩ := sv.runEvents_record run task stamp written
  refine ⟨?_, fun slot₀ hmem => ?_, fun hp other => ?_⟩
  · rw [List.map_append, List.nodup_append]
    refine ⟨h.runs, by simp, fun a ha b hb heq => hfresh ?_⟩
    rw [List.map_singleton, List.mem_singleton] at hb
    rwa [← hkeeps.run_eq, ← hb, ← heq]
  · rcases List.mem_append.mp hmem with hmem | hmem
    · have hne : slot₀.run ≠ run := fun heq => hfresh (heq ▸ List.mem_map_of_mem hmem)
      dsimp only
      rw [hothers _ hne]
      exact h.agrees slot₀ hmem
    · rw [List.mem_singleton] at hmem
      subst hmem
      rw [hkeeps.run_eq]
      dsimp only
      rw [hown]
      exact hkeeps.agrees new hnew
  · dsimp only
    by_cases hother : other = run
    · subst hother
      rw [hown]
      exact orderly_append.mpr ⟨h.orderly hp _, hkeeps.legal new hnew⟩
    · rw [hothers _ hother]
      exact h.orderly hp other

theorem Sound.sublist (h : Sound p sv) {slots : List Slot} (hsub : slots.Sublist sv.slots) :
    Sound p { sv with slots } :=
  ⟨h.runs.sublist (hsub.map _), fun slot hslot => h.agrees slot (hsub.subset hslot), h.orderly⟩

/-! ### Step by step -/

/-- The slot's run would wait for the ask. -/
structure Eligible (slot : Slot) (ask : RunAsk) : Prop where
  inSlot : slot.waiting = none
  table : ∃ phase, slot.phase.waitPhase = some phase ∧ waitsFor phase ask.kind = true
  free : ask.id ∉ slot.consumed

theorem Slot.eligible_of_candidate {slot : Slot} {view : View} {ask : RunAsk}
    (h : slot.waitCandidate view = some (some ask)) : Eligible slot ask := by
  unfold waitCandidate at h
  split at h
  · cases h
  next hin =>
    have hnone : slot.waiting = none := by simpa [outOfSlot] using hin
    split at h
    · cases h
    next phase hphase =>
      obtain ⟨asks, -, h⟩ := Option.bind_eq_some_iff.mp h
      have hhead : ((asks.filter fun ask => ask.isOpen && waitsFor phase ask.kind &&
          decide (ask.id ∉ slot.consumed)).head?) = some ask := by
        simp only [Option.bind_eq_bind] at h
        split_ifs at h
        · cases h
        · obtain ⟨alive, -, h⟩ := Option.bind_eq_some_iff.mp h
          split_ifs at h
          · cases h
          · obtain ⟨hold, -, h⟩ := Option.bind_eq_some_iff.mp h
            split_ifs at h
            · cases h
            · exact Option.some.inj h
      have hmem := List.mem_filter.mp (List.mem_of_mem_head? hhead)
      simp only [Bool.and_eq_true, decide_eq_true_eq] at hmem
      exact ⟨hnone, ⟨phase, hphase, hmem.2.1.2⟩, hmem.2.2⟩

/-- A step of the pass over the candidates changes one slot, and keeps the run of it. -/
structure Considers (p : Prop) (sv sv' : Supervisor) (index : Nat) : Prop where
  sound : Sound p sv'
  others : ∀ j, j ≠ index → sv'.slots[j]? = sv.slots[j]?

theorem Sound.startWait (h : Sound p sv) {view : View} {index : Nat} {slot : Slot} {ask : RunAsk}
    (hslot : sv.slots[index]? = some slot) (hask : Eligible slot ask) {sv' : Supervisor}
    (hnext : sv.startWait view index ask = some sv') : Considers p sv sv' index := by
  unfold Supervisor.startWait at hnext
  rw [hslot] at hnext
  obtain ⟨phase, hphase, htable⟩ := hask.table
  simp only [Option.bind_eq_bind, Option.bind_some, hphase] at hnext
  obtain ⟨status, -, hnext⟩ := Option.bind_eq_some_iff.mp hnext
  split_ifs at hnext
  · cases hnext
  · obtain rfl := Option.some.inj hnext
    refine ⟨h.set hslot ?_ slot.task view.stamp, fun j hj => List.getElem?_set_ne hj.symm⟩
    refine .single rfl fun event hkind hpayload => ?_
    exact (h.agrees slot (List.mem_of_getElem? hslot)).starts hask.inSlot hkind (by rw [hpayload]; rfl)
      (parse_text_of_waitsFor htable) hask.free view.now

theorem Sound.deferWait (h : Sound p sv) {view : View} {index : Nat} {slot : Slot} {ask : RunAsk}
    (hslot : sv.slots[index]? = some slot) {sv' : Supervisor}
    (hnext : sv.deferWait view index ask = some sv') : Considers p sv sv' index := by
  unfold Supervisor.deferWait at hnext
  rw [hslot] at hnext
  simp only [Option.bind_eq_bind, Option.bind_some] at hnext
  split_ifs at hnext with hmem
  · cases hnext
    exact ⟨h, fun _ _ => rfl⟩
  · cases hnext
  · obtain rfl := Option.some.inj hnext
    refine ⟨h.set hslot ?_ slot.task view.stamp, fun j hj => List.getElem?_set_ne hj.symm⟩
    refine .single rfl fun event hkind hpayload => ?_
    exact (h.agrees slot (List.mem_of_getElem? hslot)).defers hkind (by rw [hpayload]; rfl) hmem

theorem Sound.consider (h : Sound p sv) {view : View} {candidate : RunAsk × Nat} {slot : Slot}
    (hslot : sv.slots[candidate.2]? = some slot) (hask : Eligible slot candidate.1) :
    Considers p sv (sv.consider view candidate) candidate.2 := by
  have hsame : Considers p sv sv candidate.2 := ⟨h, fun _ _ => rfl⟩
  unfold Supervisor.consider
  split
  · cases hnext : sv.startWait view candidate.2 candidate.1 with
    | none => exact hsame
    | some sv' => exact h.startWait hslot hask hnext
  · cases hnext : sv.deferWait view candidate.2 candidate.1 with
    | none => exact hsame
    | some sv' => exact h.deferWait hslot hnext

/-- Each candidate is of another slot, which the ones before it leave as it is. -/
theorem Sound.considers (h : Sound p sv) {view : View} {candidates : List (RunAsk × Nat)}
    (hnodup : (candidates.map (·.2)).Nodup)
    (hask : ∀ c ∈ candidates, ∃ slot, sv.slots[c.2]? = some slot ∧ Eligible slot c.1) :
    Sound p (candidates.foldl (Supervisor.consider view) sv) := by
  induction candidates generalizing sv with
  | nil => exact h
  | cons c candidates ih =>
      obtain ⟨hc, hask⟩ := List.forall_mem_cons.mp hask
      rw [List.map_cons, List.nodup_cons] at hnodup
      obtain ⟨slot, hslot, hc⟩ := hc
      have hnext : Considers p sv (sv.consider view c) c.2 := h.consider hslot hc
      refine ih hnext.sound hnodup.2 fun d hd => ?_
      have hne : d.2 ≠ c.2 := fun heq => hnodup.1 (heq ▸ List.mem_map_of_mem hd)
      rw [hnext.others d.2 hne]
      exact hask d hd

theorem Supervisor.mem_candidates {sv : Supervisor} {view : View} {c : RunAsk × Nat}
    (h : c ∈ sv.candidates view) : ∃ slot, sv.slots[c.2]? = some slot ∧ Eligible slot c.1 := by
  have hmem := List.mem_mergeSort.mp h
  obtain ⟨⟨slot, index⟩, hslot, hc⟩ := List.mem_filterMap.mp hmem
  obtain ⟨ask, hask, rfl⟩ := Option.map_eq_some_iff.mp hc
  exact ⟨slot, List.mk_mem_zipIdx_iff_getElem?.mp hslot,
    Slot.eligible_of_candidate (Option.join_eq_some_iff.mp hask)⟩

theorem Supervisor.candidates_nodup (sv : Supervisor) (view : View) :
    ((sv.candidates view).map (·.2)).Nodup := by
  refine ((List.mergeSort_perm _ _).map _).nodup_iff.mpr (List.Nodup.sublist
    (?_ : List.Sublist _ (sv.slots.zipIdx.map (·.2))) ?_)
  · induction sv.slots.zipIdx with
    | nil => exact .slnil
    | cons entry entries ih =>
        obtain ⟨slot, index⟩ := entry
        cases hask : (slot.waitCandidate view).join with
        | none =>
            simp only [List.filterMap_cons, hask, Option.map_none]
            exact ih.cons _
        | some ask =>
            simp only [List.filterMap_cons, hask, Option.map_some]
            exact ih.cons_cons _
  · rw [List.zipIdx_map_snd]
    exact List.nodup_range'

theorem Sound.startWaits (h : Sound p sv) (view : View) : Sound p (sv.startWaits view) := by
  unfold Supervisor.startWaits
  split
  · exact h
  · exact h.considers (sv.candidates_nodup view) fun _ hc => Supervisor.mem_candidates hc

end Sound

end Dagq.Waits
