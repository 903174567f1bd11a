/-
# Dagq.Domain.Waiting -- runs that wait for a person outside the supervisor's slots.

A wait is no status of a run: it is the supervisor's mark on a slot, and five kinds of events are its
record.  What a restarted supervisor knows of a wait is what these events rebuild.  Of a payload only
the keys that a wait writes or reads are kept.
-/
import Dagq.Domain.Values
import Dagq.Domain.Time

namespace Dagq

/-- The text an ask's kind is stored as. -/
def AskKind.text : AskKind → String
  | .approveLanding => "approve_landing"
  | .answerPrompt => "answer_prompt"
  | .decide => "decide"
  | .workerQuestion => "worker_question"
  | .blocked => "blocked"
  | .stuckExit => "stuck_exit"
  | .followUp => "follow_up"
  | .stalled => "stalled"
  | .approvePlan => "approve_plan"
  | .plannerQuestion => "planner_question"
  | .queueHold => "queue_hold"
  | .updateFailed => "update_failed"
  | .approveUpdate => "approve_update"
  | .other value => value

/-- The kinds this binary knows. -/
def AskKind.known : List AskKind :=
  [.approveLanding, .answerPrompt, .decide, .workerQuestion, .blocked, .stuckExit, .followUp,
    .stalled, .approvePlan, .plannerQuestion, .queueHold, .updateFailed, .approveUpdate]

/-- `str::parse`: known kinds only. -/
def AskKind.parse (text : String) : Option AskKind :=
  AskKind.known.find? fun kind => kind.text = text

namespace Waits

/-! ## The record of a wait -/

def runWaitingStarted : String := "run_waiting_started"
def runWaitingAskAdded : String := "run_waiting_ask_added"
def runWaitingEnded : String := "run_waiting_ended"
def runSlotRegained : String := "run_slot_regained"
/-- The run met the conditions of a wait while the waits were at their limit. -/
def runWaitingDeferred : String := "run_waiting_deferred"

/-- The phase a waiting run keeps. -/
inductive WaitPhase
  | session | exit | revise | resume
  deriving DecidableEq

namespace WaitPhase

def text : WaitPhase → String
  | .session => "session"
  | .exit => "exit"
  | .revise => "revise"
  | .resume => "resume"

/-- Whether the phase keeps its stage going on its own after a `worker_question` is answered. -/
def fixes : WaitPhase → Bool
  | .revise | .resume => true
  | .session | .exit => false

end WaitPhase

/-- The asks a run in `phase` waits for. -/
def waitsFor : WaitPhase → AskKind → Bool
  | .session, .workerQuestion | .session, .answerPrompt | .session, .stalled => true
  | .exit, .stuckExit | .exit, .answerPrompt => true
  | .revise, .workerQuestion | .revise, .answerPrompt => true
  | .resume, .workerQuestion | .resume, .answerPrompt => true
  | _, _ => false

/-- How a wait ended. -/
inductive WaitCause
  | answered | dialogCleared | sessionMoved | sessionExited | queueHold | runEnded | leaseLost
  | wrapperSilent | phaseChanged
  deriving DecidableEq

namespace WaitCause

def text : WaitCause → String
  | .answered => "answered"
  | .dialogCleared => "dialog_cleared"
  | .sessionMoved => "session_moved"
  | .sessionExited => "session_exited"
  | .queueHold => "queue_hold"
  | .runEnded => "run_ended"
  | .leaseLost => "lease_lost"
  | .wrapperSilent => "wrapper_silent"
  | .phaseChanged => "phase_changed"

def parse (text : String) : Option WaitCause :=
  [answered, dialogCleared, sessionMoved, sessionExited, queueHold, runEnded, leaseLost, wrapperSilent,
    phaseChanged].find? fun cause => cause.text = text

@[simp] theorem parse_text (cause : WaitCause) : parse cause.text = some cause := by
  cases cause <;> decide

/-- Whether the run goes back to a slot at once, whatever `--parallel` says. -/
def returnsAtOnce (cause : WaitCause) : Bool := !(cause = answered || cause = sessionExited)

/-- Whether the run has no slot to go back to. -/
def leavesTheRun (cause : WaitCause) : Bool := cause = runEnded || cause = leaseLost

end WaitCause

/-- A kind the table names is stored as itself. -/
theorem parse_text_of_waitsFor {phase : WaitPhase} {kind : AskKind} (h : waitsFor phase kind = true) :
    AskKind.parse kind.text = some kind := by
  cases phase <;> cases kind <;> first | decide | simp [waitsFor] at h

/-- The keys of a wait's events. -/
structure Payload where
  askId : Option AskId := none
  askKind : Option String := none
  phase : Option String := none
  status : Option String := none
  waiting : Option Nat := none
  limit : Option Nat := none
  cause : Option String := none
  waitedSecs : Option Int := none
  slotWaitSecs : Option Int := none
  overParallel : Option Bool := none
  deriving DecidableEq

structure RunEvent where
  id : Nat
  taskId : Option TaskId := none
  runId : Option RunId := none
  kind : String
  payload : Payload := {}
  createdAt : String
  deriving DecidableEq

/-- The ask an event names, with the text of its kind. -/
def askOf (payload : Payload) : Option (AskId × String) :=
  payload.askId.map fun id => (id, payload.askKind.getD "")

/-- `timestamp_millis(..).unwrap_or(0)`. -/
def RunEvent.millis (event : RunEvent) : Int := (Time.timestampMillis event.createdAt.toList).getD 0

/-! ## What the record rebuilds -/

/-- Where a run stands in its latest wait. -/
structure WaitState where
  /-- The ask that started it and those added. -/
  asks : List (AskId × String)
  phase : String
  /-- The run's status when the wait started. -/
  status : String
  sinceMs : Int
  /-- When and how it ended; an ended wait waits for its slot. -/
  ended : Option (Int × WaitCause) := none
  deriving DecidableEq

/-- The supervisor that kept the wait lost the run: another lease began, it gave the lease up, or the
run was recovered. -/
def losesRun (kind : String) : Bool :=
  kind = "lease_acquired" || kind = "lease_released" || kind = "run_recovered" || kind = "runtime_error"

/-! The five kinds of a record are apart from each other and from those that lose the run. -/

@[simp] theorem started_apart : runWaitingStarted ≠ runWaitingAskAdded ∧
    runWaitingStarted ≠ runWaitingEnded ∧ runWaitingStarted ≠ runSlotRegained ∧
    runWaitingStarted ≠ runWaitingDeferred ∧ losesRun runWaitingStarted = false := by
  decide

@[simp] theorem added_apart : runWaitingAskAdded ≠ runWaitingStarted ∧
    runWaitingAskAdded ≠ runWaitingEnded ∧ runWaitingAskAdded ≠ runSlotRegained ∧
    runWaitingAskAdded ≠ runWaitingDeferred ∧ losesRun runWaitingAskAdded = false := by
  decide

@[simp] theorem ended_apart : runWaitingEnded ≠ runWaitingStarted ∧
    runWaitingEnded ≠ runWaitingAskAdded ∧ runWaitingEnded ≠ runSlotRegained ∧
    runWaitingEnded ≠ runWaitingDeferred ∧ losesRun runWaitingEnded = false := by
  decide

@[simp] theorem regained_apart : runSlotRegained ≠ runWaitingStarted ∧
    runSlotRegained ≠ runWaitingAskAdded ∧ runSlotRegained ≠ runWaitingEnded ∧
    runSlotRegained ≠ runWaitingDeferred ∧ losesRun runSlotRegained = false := by
  decide

@[simp] theorem deferred_apart : runWaitingDeferred ≠ runWaitingStarted ∧
    runWaitingDeferred ≠ runWaitingAskAdded ∧ runWaitingDeferred ≠ runWaitingEnded ∧
    runWaitingDeferred ≠ runSlotRegained ∧ losesRun runWaitingDeferred = false := by
  decide

theorem ne_of_losesRun {kind : String} (h : losesRun kind = true) : kind ≠ runWaitingStarted ∧
    kind ≠ runWaitingAskAdded ∧ kind ≠ runWaitingEnded ∧ kind ≠ runSlotRegained ∧
    kind ≠ runWaitingDeferred := by
  refine ⟨?_, ?_, ?_, ?_, ?_⟩ <;> rintro rfl <;> simp at h

namespace WaitState

/-- The wait an event starts. -/
def start (started : RunEvent) : WaitState where
  asks := (askOf started.payload).toList
  phase := started.payload.phase.getD ""
  status := started.payload.status.getD ""
  sinceMs := started.millis

/-- How a wait ended; an unreadable cause ends the run. -/
def causeOf (event : RunEvent) : WaitCause := (event.payload.cause.bind WaitCause.parse).getD .runEnded

/-- What an event after the start makes of the wait; `none` once its run is back in a slot or left. -/
def step (state : WaitState) (event : RunEvent) : Option WaitState :=
  if event.kind = runWaitingAskAdded then
    some { state with asks := state.asks ++ (askOf event.payload).toList }
  else if event.kind = runWaitingEnded && state.ended.isNone then
    if (causeOf event).leavesTheRun then none
    else some { state with ended := some (event.millis, causeOf event) }
  else if event.kind = runSlotRegained then none
  else if losesRun event.kind then none
  else some state

/-- The events before the latest start of a wait, that start, and the events after it. -/
def latest : List RunEvent → Option (RunEvent × List RunEvent)
  | [] => none
  | event :: events =>
      (latest events).or (if event.kind = runWaitingStarted then some (event, events) else none)

/-- The run's latest wait, from its events: `none` without one, or once it is back in a slot or left
the run. -/
def of (events : List RunEvent) : Option WaitState := do
  let (started, after) ← latest events
  after.foldlM step (start started)

end WaitState

/-- The runs out of a supervisor's slots. -/
structure WaitCount where
  waiting : Nat := 0
  returning : Nat := 0
  deriving DecidableEq

namespace WaitCount

def add (count : WaitCount) (ended : Bool) : WaitCount :=
  if ended then { count with returning := count.returning + 1 }
  else { count with waiting := count.waiting + 1 }

/-- The count of waits, each `true` when it ended. -/
def of (ended : List Bool) : WaitCount := ended.foldl add {}

/-- What `--max-waiting` bounds. -/
def count (count : WaitCount) : Nat := count.waiting + count.returning

end WaitCount

/-- The asks of the waits that ended so far, and those of the latest wait while it lasts. -/
structure Consumed where
  consumed : List AskId := []
  current : List (AskId × String) := []

def Consumed.step (s : Consumed) (event : RunEvent) : Consumed :=
  if event.kind = runWaitingStarted then { s with current := (askOf event.payload).toList }
  else if event.kind = runWaitingAskAdded then
    { s with current := s.current ++ (askOf event.payload).toList }
  else if event.kind = runWaitingEnded then
    { consumed := s.consumed ++ s.current.map (·.1), current := [] }
  else s

/-- The asks of every wait of the run that ended. -/
def consumedAsks (events : List RunEvent) : List AskId := (events.foldl Consumed.step {}).consumed

/-- The asks a `run_waiting_deferred` was recorded for. -/
def deferredAsks (events : List RunEvent) : List AskId :=
  (events.filter fun event => event.kind = runWaitingDeferred).filterMap fun event =>
    (askOf event.payload).map (·.1)

end Waits

end Dagq
