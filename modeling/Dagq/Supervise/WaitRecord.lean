/-
# Dagq.Supervise.WaitRecord -- what the events of a run say of its wait, event by event.

The readers of the record go over the whole of it; read event by event they are one state that each
event moves on.  The record of a run is orderly when each of its events is one that a wait in that state
allows: a wait starts where none is, is added to and ended while it lasts, and gives the slot back once it
ended, and an ask that an ended wait held starts no other and joins none.
-/
import Dagq.Supervise.Waiting
import Mathlib.Data.List.Induction
import Mathlib.Tactic.SplitIfs

namespace Dagq.Waits

/-! ## Event by event -/

theorem latest_append (events : List RunEvent) (event : RunEvent) :
    WaitState.latest (events ++ [event]) =
      if event.kind = runWaitingStarted then some (event, [])
      else (WaitState.latest events).map fun (started, after) => (started, after ++ [event]) := by
  induction events with
  | nil => simp [WaitState.latest]
  | cons e events ih =>
      rw [List.cons_append, WaitState.latest, ih, WaitState.latest]
      by_cases h : event.kind = runWaitingStarted
      · simp [h]
      · cases WaitState.latest events <;> simp [h]

/-- The latest wait, one event later. -/
theorem WaitState.of_concat (events : List RunEvent) (event : RunEvent) :
    WaitState.of (events ++ [event]) =
      if event.kind = runWaitingStarted then some (WaitState.start event)
      else (WaitState.of events).bind (WaitState.step · event) := by
  rw [WaitState.of, latest_append, WaitState.of]
  by_cases h : event.kind = runWaitingStarted
  · simp [h]
  · cases hlatest : WaitState.latest events with
    | none => simp [h]
    | some found => simp [h, List.foldlM_append]

/-- The asks a wait holds whose kinds this binary knows. -/
def WaitState.held (state : WaitState) : List (AskId × AskKind) :=
  state.asks.filterMap fun (id, kind) => (AskKind.parse kind).map (id, ·)

/-- What the record says of a run since its lease was last taken, given up or lost: its wait, the asks of
the waits that ended other than by a change of phase, and the asks a wait was deferred for. -/
structure Tally where
  wait : Option WaitState := none
  settled : List AskId := []
  deferred : List AskId := []

namespace Tally

/-- The asks of the wait that an event ends. -/
def settles (t : Tally) (event : RunEvent) : List AskId :=
  if event.kind = runWaitingEnded ∧ WaitState.causeOf event ≠ .phaseChanged then
    ((t.wait.filter (·.ended.isNone)).map (·.held.map (·.1))).getD []
  else []

/-- The ask that an event defers a wait for. -/
def defers (event : RunEvent) : List AskId :=
  if event.kind = runWaitingDeferred then ((askOf event.payload).map (·.1)).toList else []

def step (t : Tally) (event : RunEvent) : Tally where
  wait :=
    if event.kind = runWaitingStarted then some (WaitState.start event)
    else t.wait.bind (WaitState.step · event)
  settled := if losesRun event.kind then [] else t.settled ++ t.settles event
  deferred := if losesRun event.kind then [] else t.deferred ++ defers event

end Tally

def tally (events : List RunEvent) : Tally := events.foldl Tally.step {}

@[simp] theorem tally_concat (events : List RunEvent) (event : RunEvent) :
    tally (events ++ [event]) = (tally events).step event := by
  simp [tally]

@[simp] theorem tally_wait (events : List RunEvent) : (tally events).wait = WaitState.of events := by
  induction events using List.reverseRecOn with
  | nil => rfl
  | append_singleton events event ih => rw [tally_concat, WaitState.of_concat, ← ih]; rfl

/-! ## The asks the readers give -/

def consumption (events : List RunEvent) : Consumed := events.foldl Consumed.step {}

@[simp] theorem consumption_concat (events : List RunEvent) (event : RunEvent) :
    consumption (events ++ [event]) = (consumption events).step event := by
  simp [consumption]

theorem consumedAsks_eq (events : List RunEvent) : consumedAsks events = (consumption events).consumed :=
  rfl

theorem mem_consumedAsks_concat {events : List RunEvent} {event : RunEvent} {a : AskId} :
    a ∈ consumedAsks (events ++ [event]) ↔ a ∈ consumedAsks events ∨
      event.kind = runWaitingEnded ∧ ∃ ask ∈ (consumption events).current, ask.1 = a := by
  rw [consumedAsks_eq, consumedAsks_eq, consumption_concat, Consumed.step]
  by_cases hs : event.kind = runWaitingStarted
  · simp [hs]
  · by_cases ha : event.kind = runWaitingAskAdded
    · simp [ha]
    · by_cases he : event.kind = runWaitingEnded
      · simp [he]
      · rw [if_neg hs, if_neg ha, if_neg he]
        simp [he]

theorem mem_deferredAsks_concat {events : List RunEvent} {event : RunEvent} {a : AskId} :
    a ∈ deferredAsks (events ++ [event]) ↔ a ∈ deferredAsks events ∨ a ∈ Tally.defers event := by
  rw [deferredAsks, deferredAsks, List.filter_append, List.filterMap_append, List.mem_append,
    Tally.defers]
  by_cases h : event.kind = runWaitingDeferred <;> simp [h]

/-! ## The latest wait's asks -/

/-- All that an event can do to a wait that it does not end the record of. -/
theorem WaitState.step_cases {state state' : WaitState} {event : RunEvent}
    (h : state.step event = some state') :
    (event.kind = runWaitingAskAdded ∧
      state' = { state with asks := state.asks ++ (askOf event.payload).toList }) ∨
    (event.kind = runWaitingEnded ∧ state.ended = none ∧
      state' = { state with ended := some (event.millis, causeOf event) }) ∨
    (event.kind ≠ runWaitingAskAdded ∧ (event.kind = runWaitingEnded → state.ended ≠ none) ∧
      state' = state) := by
  rw [WaitState.step] at h
  by_cases ha : event.kind = runWaitingAskAdded
  · rw [if_pos ha] at h
    exact .inl ⟨ha, (Option.some.inj h).symm⟩
  · rw [if_neg ha] at h
    split_ifs at h with he hl hr hlost
    · simp only [Bool.and_eq_true, decide_eq_true_eq, Option.isNone_iff_eq_none] at he
      exact .inr (.inl ⟨he.1, he.2, (Option.some.inj h).symm⟩)
    · refine .inr (.inr ⟨ha, fun hkind hended => he ?_, (Option.some.inj h).symm⟩)
      simp [hkind, hended]

/-- While the latest wait lasts, its asks are the ones the readers have not consumed. -/
theorem current_of_wait {events : List RunEvent} {state : WaitState}
    (h : WaitState.of events = some state) (hended : state.ended = none) :
    (consumption events).current = state.asks := by
  induction events using List.reverseRecOn generalizing state with
  | nil => cases h
  | append_singleton events event ih =>
      rw [WaitState.of_concat] at h
      rw [consumption_concat, Consumed.step]
      by_cases hs : event.kind = runWaitingStarted
      · rw [if_pos hs] at h ⊢
        cases h
        rfl
      · rw [if_neg hs] at h ⊢
        obtain ⟨before, hbefore, hstep⟩ := Option.bind_eq_some_iff.mp h
        rcases WaitState.step_cases hstep with ⟨ha, rfl⟩ | ⟨-, -, rfl⟩ | ⟨ha, he, rfl⟩
        · rw [if_pos ha, ih hbefore hended]
        · cases hended
        · rw [if_neg ha, if_neg fun hkind => he hkind hended]
          exact ih hbefore hended

theorem WaitState.mem_asks_of_held {state : WaitState} {ask : AskId × AskKind}
    (h : ask ∈ state.held) : ∃ kind, (ask.1, kind) ∈ state.asks := by
  obtain ⟨⟨id, kind⟩, hmem, hread⟩ := List.mem_filterMap.mp h
  obtain ⟨_, -, rfl⟩ := Option.map_eq_some_iff.mp hread
  exact ⟨kind, hmem⟩

theorem Tally.mem_settles {t : Tally} {event : RunEvent} {a : AskId} (h : a ∈ t.settles event) :
    event.kind = runWaitingEnded ∧ ∃ state, t.wait = some state ∧ state.ended = none ∧
      ∃ ask ∈ state.held, ask.1 = a := by
  rw [Tally.settles] at h
  split_ifs at h with hkind
  · cases hwait : t.wait with
    | none => simp [hwait] at h
    | some state =>
        cases hended : state.ended with
        | some end' => simp [hwait, Option.filter_some, hended] at h
        | none =>
            refine ⟨hkind.1, state, rfl, hended, ?_⟩
            simpa [hwait, Option.filter_some, hended] using h
  · cases h

/-- What the record settles, the readers give as consumed. -/
theorem settled_subset_consumed {events : List RunEvent} {a : AskId}
    (h : a ∈ (tally events).settled) : a ∈ consumedAsks events := by
  induction events using List.reverseRecOn with
  | nil => cases h
  | append_singleton events event ih =>
      rw [mem_consumedAsks_concat]
      rw [tally_concat, Tally.step] at h
      by_cases hlost : losesRun event.kind = true
      · simp [hlost] at h
      · simp only [hlost] at h
        rcases List.mem_append.mp h with h | h
        · exact .inl (ih h)
        · obtain ⟨hkind, state, hwait, hended, ask, hask, rfl⟩ := Tally.mem_settles h
          rw [tally_wait] at hwait
          obtain ⟨kind, hmem⟩ := WaitState.mem_asks_of_held hask
          exact .inr ⟨hkind, (ask.1, kind), by rwa [current_of_wait hwait hended], rfl⟩

/-- What the record defers, the readers give as deferred. -/
theorem deferred_subset {events : List RunEvent} {a : AskId} (h : a ∈ (tally events).deferred) :
    a ∈ deferredAsks events := by
  induction events using List.reverseRecOn with
  | nil => cases h
  | append_singleton events event ih =>
      rw [mem_deferredAsks_concat]
      rw [tally_concat, Tally.step] at h
      by_cases hlost : losesRun event.kind = true
      · simp [hlost] at h
      · simp only [hlost] at h
        exact (List.mem_append.mp h).imp_left ih

/-! ## Orderly records -/

/-- What an event of a run's record takes of the events before it. -/
structure Legal (before : List RunEvent) (event : RunEvent) : Prop where
  started : event.kind = runWaitingStarted → WaitState.of before = none ∧
    ∀ ask ∈ askOf event.payload, ask.1 ∉ (tally before).settled
  added : event.kind = runWaitingAskAdded → ∃ state, WaitState.of before = some state ∧
    state.ended = none ∧ ∀ ask ∈ askOf event.payload,
      ask.1 ∉ (tally before).settled ∧ ask.1 ∉ state.held.map (·.1)
  ended : event.kind = runWaitingEnded → ∃ state, WaitState.of before = some state ∧
    state.ended = none
  regained : event.kind = runSlotRegained → ∃ state, WaitState.of before = some state ∧
    state.ended ≠ none
  deferred : event.kind = runWaitingDeferred → ∀ ask ∈ askOf event.payload,
    ask.1 ∉ (tally before).deferred

/-- Every event of `events` is one that a wait allows after `before` and those before it. -/
def LegalFrom : List RunEvent → List RunEvent → Prop
  | _, [] => True
  | before, event :: events => Legal before event ∧ LegalFrom (before ++ [event]) events

/-- A run's record is orderly. -/
def Orderly (events : List RunEvent) : Prop := LegalFrom [] events

theorem legalFrom_append {before events more : List RunEvent} :
    LegalFrom before (events ++ more) ↔ LegalFrom before events ∧ LegalFrom (before ++ events) more := by
  induction events generalizing before with
  | nil => simp [LegalFrom]
  | cons event events ih => simp [LegalFrom, ih, and_assoc]

theorem orderly_append {events more : List RunEvent} :
    Orderly (events ++ more) ↔ Orderly events ∧ LegalFrom events more := by
  rw [Orderly, legalFrom_append, List.nil_append]
  rfl

theorem Tally.settles_of_ne {t : Tally} {event : RunEvent} (h : event.kind ≠ runWaitingEnded) :
    t.settles event = [] := by
  simp [settles, h]

theorem WaitState.held_append (state : WaitState) (more : List (AskId × String)) :
    ({ state with asks := state.asks ++ more } : WaitState).held =
      state.held ++ more.filterMap fun (id, kind) => (AskKind.parse kind).map (id, ·) := by
  simp [held, List.filterMap_append]

/-- While a wait lasts, its asks are each held once and by no wait that ended before it. -/
def Distinct (events : List RunEvent) : Prop := ∀ state, WaitState.of events = some state →
  state.ended = none → ((tally events).settled ++ state.held.map (·.1)).Nodup

section Step

variable {events : List RunEvent} {event : RunEvent}

/-- An ask that an event names, if its kind is known, added to asks it is not among. -/
theorem nodup_append_ask {ids : List AskId} (h : ids.Nodup)
    (hfree : ∀ ask ∈ askOf event.payload, ask.1 ∉ ids) :
    (ids ++ ((askOf event.payload).toList.filterMap fun (id, kind) =>
      (AskKind.parse kind).map (id, ·)).map (·.1)).Nodup := by
  cases hask : askOf event.payload with
  | none => simpa using h
  | some ask =>
      obtain ⟨id, kind⟩ := ask
      cases hread : AskKind.parse kind with
      | none => simpa [hread] using h
      | some kind' =>
          have hid : id ∉ ids := hfree (id, kind) hask
          simpa [hread, List.nodup_append, h] using fun a ha => (ne_of_mem_of_not_mem ha hid)

theorem Legal.distinct (hlegal : Legal events event) (hlost : losesRun event.kind ≠ true)
    (hsettled : (tally events).settled.Nodup) (hwait : Distinct events) :
    Distinct (events ++ [event]) := by
  intro state hstate hended
  rw [WaitState.of_concat] at hstate
  simp only [tally_concat, Tally.step, hlost]
  by_cases hs : event.kind = runWaitingStarted
  · rw [if_pos hs, Option.some.injEq] at hstate
    subst hstate
    rw [Tally.settles_of_ne (by simp [hs]), List.append_nil]
    exact nodup_append_ask hsettled (hlegal.started hs).2
  · rw [if_neg hs] at hstate
    obtain ⟨before, hof, hstep⟩ := Option.bind_eq_some_iff.mp hstate
    rcases WaitState.step_cases hstep with ⟨ha, rfl⟩ | ⟨-, -, rfl⟩ | ⟨-, he, rfl⟩
    · obtain ⟨state, hof', -, hfree⟩ := hlegal.added ha
      rw [hof, Option.some.injEq] at hof'
      subst hof'
      rw [Tally.settles_of_ne (by simp [ha]), List.append_nil, WaitState.held_append, List.map_append,
        ← List.append_assoc]
      refine nodup_append_ask (hwait before hof hended) fun ask hask hmem => ?_
      rcases List.mem_append.mp hmem with hin | hin
      · exact (hfree ask hask).1 hin
      · exact (hfree ask hask).2 hin
    · cases hended
    · rw [Tally.settles_of_ne fun hkind => he hkind hended, List.append_nil]
      exact hwait _ hof hended

theorem Distinct.settles (hsettled : (tally events).settled.Nodup) (hwait : Distinct events) :
    ((tally events).settled ++ (tally events).settles event).Nodup := by
  by_cases hsettles : (tally events).settles event = []
  · rwa [hsettles, List.append_nil]
  · obtain ⟨a, ha⟩ := List.exists_mem_of_ne_nil _ hsettles
    obtain ⟨hkind, state, hstate, hended, -⟩ := Tally.mem_settles ha
    have hall : (tally events).settles event = state.held.map (·.1) := by
      unfold Tally.settles at hsettles ⊢
      split
      · rw [hstate, Option.filter_some, hended]
        rfl
      next hno => exact absurd (if_neg hno) hsettles
    rw [hall]
    exact hwait state ((tally_wait events).symm.trans hstate) hended

theorem Legal.defers (hlegal : Legal events event) (hdeferred : (tally events).deferred.Nodup) :
    ((tally events).deferred ++ Tally.defers event).Nodup := by
  unfold Tally.defers
  split
  next hkind =>
    cases hask : askOf event.payload with
    | none => simpa using hdeferred
    | some ask =>
        have hfree := hlegal.deferred hkind ask hask
        simpa [List.nodup_append, hdeferred] using fun a ha => (ne_of_mem_of_not_mem ha hfree)
  next => simpa using hdeferred

end Step

/-- In an orderly record no ask is held by two waits that ended, and none is deferred twice, since the
lease was last taken. -/
theorem Orderly.once {events : List RunEvent} (h : Orderly events) :
    (tally events).settled.Nodup ∧ (tally events).deferred.Nodup := by
  suffices hinv : ((tally events).settled.Nodup ∧ (tally events).deferred.Nodup) ∧ Distinct events
    from hinv.1
  induction events using List.reverseRecOn with
  | nil => exact ⟨⟨List.nodup_nil, List.nodup_nil⟩, nofun⟩
  | append_singleton events event ih =>
      obtain ⟨hbefore, hlegal, -⟩ := orderly_append.mp h
      obtain ⟨⟨hsettled, hdeferred⟩, hwait⟩ := ih hbefore
      by_cases hlost : losesRun event.kind = true
      · obtain ⟨hs, ha, he, hr, -⟩ := ne_of_losesRun hlost
        refine ⟨by simp [Tally.step, hlost], fun state hstate => ?_⟩
        rw [WaitState.of_concat, if_neg hs] at hstate
        obtain ⟨before, -, hstep⟩ := Option.bind_eq_some_iff.mp hstate
        simp [WaitState.step, ha, he, hr, hlost] at hstep
      · refine ⟨?_, hlegal.distinct hlost hsettled hwait⟩
        simp only [tally_concat, Tally.step, hlost, if_false, Bool.false_eq_true]
        exact ⟨hwait.settles hsettled, hlegal.defers hdeferred⟩

/-- No event of a wait, and none that loses the run. -/
def RunEvent.isNeutral (event : RunEvent) : Bool :=
  !(event.kind = runWaitingStarted || event.kind = runWaitingAskAdded ||
    event.kind = runWaitingEnded || event.kind = runSlotRegained ||
    event.kind = runWaitingDeferred || losesRun event.kind)

theorem isNeutral_iff {event : RunEvent} : event.isNeutral = true ↔
    event.kind ≠ runWaitingStarted ∧ event.kind ≠ runWaitingAskAdded ∧
    event.kind ≠ runWaitingEnded ∧ event.kind ≠ runSlotRegained ∧
    event.kind ≠ runWaitingDeferred ∧ losesRun event.kind = false := by
  simp [RunEvent.isNeutral, and_assoc]

theorem legal_of_isNeutral {before : List RunEvent} {event : RunEvent}
    (h : event.isNeutral = true) : Legal before event := by
  obtain ⟨hs, ha, he, hr, hd, -⟩ := isNeutral_iff.mp h
  exact ⟨(absurd · hs), (absurd · ha), (absurd · he), (absurd · hr), (absurd · hd)⟩

/-- An event that has nothing to do with a wait leaves what the record says. -/
theorem tally_of_isNeutral {events : List RunEvent} {event : RunEvent} (h : event.isNeutral = true) :
    tally (events ++ [event]) = tally events := by
  obtain ⟨hs, ha, he, hr, hd, hlost⟩ := isNeutral_iff.mp h
  have hwait : (tally events).wait.bind (WaitState.step · event) = (tally events).wait := by
    cases (tally events).wait with
    | none => rfl
    | some state => simp [WaitState.step, ha, he, hr, hlost]
  rw [tally_concat, Tally.step, hwait]
  simp only [hs, hlost, Tally.settles, he, Tally.defers, hd, false_and, if_false, Bool.false_eq_true,
    List.append_nil]

end Dagq.Waits
