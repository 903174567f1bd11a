/-
# Dagq.Domain.LandClock -- a run's wait to land, by phase.

The time from a run's first `validation_finished` to its `run_integrated` is cut at the events that start
a phase of the landing.  A person's wait is a phase of its own, which the run leaves for the phase the
first open ask interrupted.
-/
import Dagq.Domain.Stats

namespace Dagq.LandClock

/-! ## Events -/

/-- The phases, in the order a landing goes through them. -/
inductive Phase
  | exit | review | revise | conflict | ask | resume | landingQueue | rebase | verify
  deriving DecidableEq, Repr

open Phase in
def phases : List Phase :=
  [exit, review, revise, conflict, ask, resume, landingQueue, rebase, verify]

/-- The kinds of event that are looked at. -/
inductive Kind
  | validationFinished | runIntegrated
  | reviewStarted | reviewRetried | reviewFinished | reviewFailed
  | reviseRequested | reviseUnsent | conflictPrecheck | landingQueued
  | integrationError | integrationStarted | integrationRebased
  | askOpened | askAnswered
  | pushFinished | pushFailed | pushSkipped
  | other (kind : String)
  deriving DecidableEq

/-- An event of the run, with the keys of its payload that are read; `at'` is in unix milliseconds. -/
structure RunEvent where
  kind : Kind
  at' : Int
  status : Option String := none
  /-- `requested: true`. -/
  requested : Bool := false
  /-- `kind` of an ask. -/
  askKind : Option String := none
  /-- `ask_id`, or `id`. -/
  askKey : Option String := none
  /-- `runtime_delivers`. -/
  runtimeDelivers : Option Bool := none
  deriving DecidableEq

/-! ## The phase a run is in -/

/-- The phase, and what brings the run back from an ask. -/
structure Control where
  phase : Phase
  /-- The phase an open ask interrupted, to go back to once it is answered. -/
  beforeAsk : Option Phase := none
  /-- The run's open asks, by id, with their kind. -/
  asks : List (String × Option String) := []
  deriving DecidableEq

namespace Control

/-- `HashMap::insert`. -/
def insertAsk (asks : List (String × Option String)) (key : String) (kind : Option String) :
    List (String × Option String) :=
  asks.filter (·.1 ≠ key) ++ [(key, kind)]

/-- `HashMap::remove`. -/
def removeAsk (asks : List (String × Option String)) : Option String → List (String × Option String)
  | some key => asks.filter (·.1 ≠ key)
  | none => asks

/-- An ask opens.  The observer's `blocked` and a planner's question are about the run but do not hold
it. -/
def openAsk (control : Control) (event : RunEvent) : Option Phase × Control :=
  if event.askKind = some "blocked" ∨ event.askKind = some "planner_question" then (none, control)
  else
    (some .ask,
      { control with
        asks := match event.askKey with
          | some key => insertAsk control.asks key event.askKind
          | none => control.asks
        beforeAsk := if control.phase = .ask then control.beforeAsk else some control.phase })

/-- An ask is answered. -/
def answerAsk (control : Control) (event : RunEvent) : Option Phase × Control :=
  let opened := event.askKey.bind fun key => (control.asks.find? (·.1 = key)).bind (·.2)
  let asks := removeAsk control.asks event.askKey
  if event.askKind.or opened = some "approve_landing" then
    -- `land` waits for the slot; another answer is the inbox's to read, still a person's wait.
    (some (if event.runtimeDelivers = some false then .ask else .landingQueue),
      { control with asks := [], beforeAsk := none })
  else if asks.isEmpty then (control.beforeAsk, { control with asks := [], beforeAsk := none })
  else (none, { control with asks })

/-- The phase an event starts, if any, with what it does to the asks. -/
def next (control : Control) (event : RunEvent) : Option Phase × Control :=
  if event.status = some "needs_session" then (some .resume, control)
  else
    match event.kind with
    | .reviewStarted | .reviewRetried => (some .review, control)
    | .reviewFinished | .validationFinished => (some .exit, control)
    | .reviewFailed => (some .ask, control)
    | .reviseRequested => (some .revise, control)
    -- The request could not be sent: the session is asked to exit.
    | .reviseUnsent => (some .exit, control)
    | .conflictPrecheck => (some (if event.requested then .conflict else .exit), control)
    | .landingQueued => (some .landingQueue, control)
    -- The landing gave the lease back: the run waits for a person, not for the slot.
    | .integrationError => (some .ask, control)
    | .integrationStarted => (some .rebase, control)
    | .integrationRebased => (some .verify, control)
    | .askOpened => control.openAsk event
    | .askAnswered => control.answerAsk event
    | _ => (none, control)

/-- Any other phase drops the asks, unless their answer started it. -/
def settle (control : Control) (event : RunEvent) (phase : Phase) : Control :=
  if phase ≠ .ask ∧ event.kind ≠ .askAnswered then { control with asks := [], beforeAsk := none }
  else control

end Control

/-! ## The clock -/

structure LandPhases where
  secs : Phase → Int
  push : Option Int

/-- A run's wait to land as its events go by, in unix milliseconds. -/
structure Clock where
  control : Control
  since : Int
  spent : Phase → Int := fun _ => 0
  integrated : Option Int := none
  push : Option Int := none

namespace Clock

def enter (clock : Clock) (phase : Phase) (at_ : Int) : Clock :=
  { clock with
    spent := fun p =>
      if p = clock.control.phase then clock.spent p + max (at_ - clock.since) 0 else clock.spent p
    since := max at_ clock.since
    control := { clock.control with phase } }

/-- Take the run's next event. -/
def observe (clock : Clock) (event : RunEvent) : Clock :=
  match clock.integrated with
  | some integrated =>
      if clock.push.isNone ∧
          (event.kind = .pushFinished ∨ event.kind = .pushFailed ∨ event.kind = .pushSkipped) then
        { clock with push := some ((max (event.at' - integrated) 0).tdiv 1000) }
      else clock
  | none =>
      if event.kind = .runIntegrated then
        { clock.enter clock.control.phase event.at' with integrated := some event.at' }
      else
        match clock.control.next event with
        | (none, control) => { clock with control }
        | (some phase, control) =>
            ({ clock with control := control.settle event phase }).enter phase event.at'

/-- Start at the run's first `validation_finished`, in the phase that event starts. -/
def start (event : RunEvent) : Clock := observe { control := { phase := .exit }, since := event.at' } event

/-- Whether `run_integrated` ended the wait. -/
def landed (clock : Clock) : Bool := clock.integrated.isSome

/-- Milliseconds in a phase, up to `now` for a run still waiting. -/
def spentBy (clock : Clock) (now : Int) (phase : Phase) : Int :=
  if clock.integrated.isNone ∧ phase = clock.control.phase then
    clock.spent phase + max (now - clock.since) 0
  else clock.spent phase

/-- The seconds per phase. -/
def phases (clock : Clock) (now : Int) : LandPhases where
  secs phase := (clock.spentBy now phase).tdiv 1000
  push := clock.push

end Clock

/-! ## The wait of a run -/

/-- What `runs` keeps of a run for its wait to land. -/
structure Track where
  validated : Option Int := none
  land : Option Clock := none
  waitToLand : Option Int := none

def Track.observe (track : Track) (event : RunEvent) : Track :=
  let track := { track with land := track.land.map fun clock => clock.observe event }
  match event.kind with
  | .validationFinished =>
      if track.validated.isNone then
        { track with validated := some event.at', land := some (.start event) }
      else track
  | .runIntegrated =>
      { track with waitToLand := Stats.secondsBetween track.validated (some event.at') }
  | _ => track

def track (events : List RunEvent) : Track := events.foldl Track.observe {}

/-- The seconds a run that landed spent in each phase. -/
def Track.landPhases (track : Track) : Option LandPhases :=
  (track.land.filter (·.landed)).map (·.phases 0)

end Dagq.LandClock
