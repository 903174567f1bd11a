/-
# Dagq.Domain.Timeline -- the gaps in a run's events, and why the run was waiting through each.

The reason of a gap is what the events before it show, `unknown` when none does.  Of a payload only the
keys that this reads are kept.
-/
import Dagq.Domain.Time
import Mathlib.Data.List.Sort

namespace Dagq.Timeline

/-- The keys read of an event; of an id, whether the key is there and the integer it holds. -/
structure Payload where
  requested : Bool := false
  unsent : Bool := false
  backgroundRunning : Bool := false
  accepted : Bool := false
  askId : Option (Option Int) := none
  id : Option (Option Int) := none
  kind : Option String := none
  deriving DecidableEq

structure RunEvent where
  id : Nat
  kind : String
  payload : Payload := {}
  createdAt : String
  deriving DecidableEq

/-- The session the supervisor watches. -/
inductive Phase
  | session | resume | revise | conflict
  deriving DecidableEq

/-- One gap between two events of a run. -/
structure Gap where
  afterEvent : Nat
  /-- `none` for the gap up to now of a run that is not finished. -/
  beforeEvent : Option Nat
  start : String
  stop : Option String
  secs : Int
  reason : String := "unknown"
  phase : Option Phase := none
  /-- For `idle`: whether an idle marker or a stall nudge confirmed it. -/
  confirmed : Option Bool := none
  /-- For `waiting_ask`: the open asks. -/
  askIds : List Int := []
  deriving DecidableEq

/-- What the events up to some point say about the run. -/
structure State where
  phase : Option Phase := none
  /-- The phase a revise or conflict request replaced. -/
  replaced : Option Phase := none
  /-- The phase's receipt, or answer, was observed. -/
  answered : Bool := false
  /-- The latest idle marker of the phase: whether background work ran. -/
  idle : Option Bool := none
  nudged : Bool := false
  receipt : Bool := false
  accepted : Bool := false
  integrating : Bool := false
  /-- Ascending. -/
  openAsks : List Int := []
  deriving DecidableEq

/-- The ask an event names. -/
def askId (payload : Payload) : Option Int := (payload.askId.or payload.id).join

/-- Whether an ask holds the run it is opened on: the observer's `blocked` and the planner's question do
not. -/
def holdsTheRun (payload : Payload) : Bool :=
  !(payload.kind = some "blocked" || payload.kind = some "planner_question")

/-- `BTreeSet::insert`. -/
def insertAsk (id : Int) (asks : List Int) : List Int :=
  if id ∈ asks then asks else asks.orderedInsert (· ≤ ·) id

/-- What an event says of the run. -/
inductive Said
  | agentStarted | resumeStarted | reviseRequested | conflictRequested
  | receiptObserved
  /-- The revise or the conflict is answered. -/
  | fixed
  /-- A request could not be sent. -/
  | unsent
  | idle (background : Bool)
  | nudged (background : Bool)
  | exited
  | validated (accepted : Bool)
  | integrationStarted
  /-- The landing is over, or its supervisor lost it. -/
  | integrationOver
  | askOpened (id : Int)
  | askAnswered (id : Int)
  | nothing
  deriving DecidableEq

/-- The arms of `State::apply` on an event's kind and payload. -/
def RunEvent.said (event : RunEvent) : Said :=
  if event.kind = "agent_started" then .agentStarted
  else if event.kind = "resume_started" then .resumeStarted
  else if event.kind = "revise_requested" then .reviseRequested
  else if event.kind = "conflict_precheck" ∧ event.payload.requested then .conflictRequested
  else if event.kind = "receipt_observed" then .receiptObserved
  else if event.kind = "revise_finished" ∨ event.kind = "conflict_resolved" then .fixed
  else if event.kind = "revise_unsent" then .unsent
  else if event.kind = "conflict_precheck" ∧ event.payload.unsent then .unsent
  else if event.kind = "session_idle_observed" then .idle event.payload.backgroundRunning
  else if event.kind = "stall_nudged" then .nudged event.payload.backgroundRunning
  else if event.kind = "session_exited" then .exited
  else if event.kind = "validation_finished" then .validated event.payload.accepted
  else if event.kind = "integration_started" then .integrationStarted
  else if event.kind = "ask_opened" ∧ holdsTheRun event.payload then
    ((askId event.payload).map Said.askOpened).getD .nothing
  else if event.kind = "ask_answered" then ((askId event.payload).map Said.askAnswered).getD .nothing
  else if event.kind ∈ ["run_integrated", "integration_deferred", "integration_error",
      "integration_failed", "runtime_error", "run_adopted", "run_recovered"] then .integrationOver
  else .nothing

namespace State

@[simp] def start (s : State) (phase : Phase) : State :=
  { s with phase := some phase, answered := false, idle := none, nudged := false }

@[simp] def request (s : State) (phase : Phase) : State := { s with replaced := s.phase }.start phase

/-- A request that could not be sent leaves the session in the phase it replaced, after the receipt the
review followed. -/
@[simp] def withdraw (s : State) : State := { s with phase := s.replaced, replaced := none, answered := true }

/-- What an event says moves the state on. -/
@[simp] def hear (s : State) : Said → State
  | .agentStarted => s.start .session
  -- The resumed session makes a new receipt for a new validation, and no landing goes on.
  | .resumeStarted => { s.start .resume with receipt := false, accepted := false, integrating := false }
  | .reviseRequested => s.request .revise
  | .conflictRequested => s.request .conflict
  | .receiptObserved => { s with receipt := true, answered := true }
  | .fixed => { s with answered := true }
  | .unsent => s.withdraw
  | .idle background => { s with idle := some background }
  | .nudged background => { s with nudged := true, idle := some background }
  | .exited => { s with phase := none }
  | .validated accepted => { s with accepted }
  | .integrationStarted => { s with integrating := true }
  | .integrationOver => { s with integrating := false }
  | .askOpened id => { s with openAsks := insertAsk id s.openAsks }
  | .askAnswered id => { s with openAsks := s.openAsks.filter (id ≠ ·) }
  | .nothing => s

@[simp] def apply (s : State) (event : RunEvent) : State := s.hear event.said

/-- The reason of a gap that starts in this state and ends at `next`. -/
def reason (s : State) (next : Option RunEvent) (gap : Gap) : Gap :=
  if next.any fun e => e.kind = "run_adopted" || e.kind = "run_recovered" then
    { gap with reason := "no_supervisor" }
  else if s.openAsks ≠ [] then { gap with reason := "waiting_ask", askIds := s.openAsks }
  else if s.integrating then { gap with reason := "integrating" }
  else
    match s.phase with
    | some phase =>
        if s.idle = some true then { gap with phase := some phase, reason := "background" }
        else if s.answered then { gap with phase := some phase, reason := "after_receipt" }
        else
          { gap with
            phase := some phase
            confirmed := some (s.idle.isSome || s.nudged)
            reason := "idle" }
    | none =>
        if s.accepted then { gap with reason := "waiting_integration" }
        else if s.receipt then { gap with reason := "after_receipt" }
        else gap

end State

/-- When an event was recorded. -/
def RunEvent.millis (event : RunEvent) : Option Int := Time.timestampMillis event.createdAt.toList

/-- When a gap ends: at the next event, or now. -/
def endMillis (nowMs : Option Int) : Option RunEvent → Option Int
  | some next => next.millis
  | none => nowMs

/-- The gap from an event, in the state after it, to the next event or to now. -/
def gapAfter (minSecs : Int) (nowMs : Option Int) (s : State) (event : RunEvent)
    (next : Option RunEvent) : Option Gap := do
  let start ← event.millis
  let stop ← endMillis nowMs next
  let secs := (stop - start).tdiv 1000
  if secs < max minSecs 1 then none
  else
    return s.reason next {
      afterEvent := event.id
      beforeEvent := next.map (·.id)
      start := event.createdAt
      stop := next.map (·.createdAt)
      secs }

/-- The gaps from the state before some events on. -/
def gapsFrom (minSecs : Int) (nowMs : Option Int) : State → List RunEvent → List Gap
  | _, [] => []
  | s, event :: events =>
      let s := s.apply event
      (gapAfter minSecs nowMs s event events.head?).toList ++ gapsFrom minSecs nowMs s events

/-- The gaps of at least `minSecs` between consecutive events of one run, with their reasons.  With
`nowMs`, the run is not finished and the time from its last event to now is a gap too. -/
def gaps (events : List RunEvent) (minSecs : Int) (nowMs : Option Int) : List Gap :=
  gapsFrom minSecs nowMs {} events

end Dagq.Timeline
