/-
# Dagq.Sessions.Spans -- the spans in the log.

A span is a `session_opened` row that no `session_closed` row names.  They are written next to the event
that starts or ends them, in its transaction; a review's and a plan review's span can also be closed with
no event of their own.
-/
import Dagq.Domain.Sessions
import Dagq.Lib.Machine

namespace Dagq.Sessions

open Lib

/-! ## Rows -/

/-- What a row of `run_events` says, as far as spans go. -/
inductive Body
  | event (kind : EventKind) (payload : Payload)
  | opened (payload : SpanPayload)
  | closed (openedEventId : Nat) (kind : SpanKind) (sessionId : Option String) (reason : CloseReason)
  deriving DecidableEq

structure Row where
  id : Nat
  taskId : Option TaskId
  runId : Option RunId
  body : Body
  deriving DecidableEq

/-- The rows, oldest first, and the id the next one gets. -/
structure Log where
  rows : List Row := []
  nextId : Nat := 1

/-- The id of the `session_opened` the row closes. -/
def Row.closes (row : Row) : Option Nat :=
  match row.body with
  | .closed openedEventId _ _ _ => some openedEventId
  | _ => none

/-- `insert_at`, and the insert of an event. -/
def Log.insert (log : Log) (taskId : Option TaskId) (runId : Option RunId) (body : Body) : Log where
  rows := log.rows ++ [{ id := log.nextId, taskId, runId, body }]
  nextId := log.nextId + 1

/-- `open_spans`: the `session_opened` rows matching `opened` that no `session_closed` matching `closed`
names, oldest first. -/
def Log.openSpans (log : Log) (opened : Row → SpanPayload → Bool) (closed : Row → Bool) :
    List OpenSpan :=
  log.rows.filterMap fun row =>
    match row.body with
    | .opened payload =>
        if opened row payload && !log.rows.any fun c => closed c && c.closes = some row.id then
          some ⟨row.id, payload⟩
        else none
    | _ => none

/-- `close`. -/
def Log.close (log : Log) (taskId : Option TaskId) (runId : Option RunId) (span : OpenSpan)
    (reason : CloseReason) : Log :=
  log.insert taskId runId (.closed span.openedEventId span.kind span.payload.sessionId reason)

/-! ## After an event -/

/-- What is read about the run or the proposal of an event: the run's row, the proposal's goals. -/
structure Env where
  worktree : Option String := none
  runDir : Option String := none
  workspaceId : Option String := none
  goalIds : List GoalId := []

/-- How many events of the kind the run has. -/
def Log.eventCount (log : Log) (runId : RunId) (kind : EventKind) : Nat :=
  log.rows.countP fun row => row.runId = some runId &&
    match row.body with
    | .event k _ => k = kind
    | _ => false

/-- `run_context`. -/
def Log.runContext (log : Log) (runId : RunId) (env : Env) : SpanContext where
  worktree := env.worktree
  runDir := env.runDir
  workspaceId := env.workspaceId
  resumes := log.eventCount runId .resumeStarted
  revises := log.eventCount runId .reviseRequested - log.eventCount runId .reviseUnsent

/-- One change, on the task and run of the event. -/
def Log.apply (taskId : Option TaskId) (runId : Option RunId) (log : Log) : SpanChange → Log
  | .close span reason => log.close taskId runId span reason
  | .opened payload => log.insert taskId runId (.opened payload)

/-- `follow`: the spans an event just inserted closes and opens. -/
def Log.follow (log : Log) (taskId : Option TaskId) (runId : Option RunId) (kind : EventKind)
    (payload : Payload) (env : Env) : Log :=
  match scope kind, taskId, runId with
  | some .run, some task, some run =>
      let spans := log.openSpans (fun o _ => o.taskId = some task && o.runId = some run)
        (fun c => c.taskId = some task && c.runId = some run)
      (changes kind payload spans (log.runContext run env)).foldl (Log.apply taskId runId) log
  | some .proposal, some task, none =>
      let spans := log.openSpans
        (fun o p => o.taskId = some task && o.runId.isNone && p.proposalId.isSome &&
          p.proposalId = payload.proposalId)
        (fun c => c.taskId = some task && c.runId.isNone)
      (changes kind payload spans { goalIds := env.goalIds }).foldl (Log.apply taskId runId) log
  | some .queue, none, none =>
      let spans := log.openSpans (fun o p => o.taskId.isNone && p.kind = .observer)
        (fun c => c.taskId.isNone)
      (changes kind payload spans {}).foldl (Log.apply taskId runId) log
  | _, _, _ => log

/-- An event and the spans that follow it. -/
def Log.record (log : Log) (taskId : Option TaskId) (runId : Option RunId) (kind : EventKind)
    (payload : Payload) (env : Env) : Log :=
  (log.insert taskId runId (.event kind payload)).follow taskId runId kind payload env

/-! ## Closing without an event -/

/-- `close_review`: the review span of a run whose headless job ended without a verdict. -/
def Log.closeReview (log : Log) (taskId : Option TaskId) (runId : RunId) : Log :=
  let spans := log.openSpans (fun o p => o.runId = some runId && p.kind = .review)
    (fun c => c.runId = some runId)
  spans.foldl (fun log span => log.close taskId (some runId) span .jobFinished) log

/-- The task of the row with the id. -/
def Log.taskOfRow (log : Log) (id : Nat) : Option TaskId :=
  (log.rows.find? (·.id = id)).bind (·.taskId)

/-- `close_plan_review`: the span of a plan review whose row ended without an event. -/
def Log.closePlanReview (log : Log) (planReviewId : Nat) (inferred : Bool) : Log :=
  let spans := log.openSpans
    (fun o p => o.runId.isNone && p.kind = .planReview && p.planReviewId = some planReviewId)
    (fun c => c.runId.isNone)
  let reason := if inferred then .inferred else .jobFinished
  spans.foldl (fun closed span => closed.close (log.taskOfRow span.openedEventId) none span reason) log

/-! ## Runs -/

/-- What the runtime writes: an event of a run (on the run's task), of a task, or of the queue; the close
of a review's or a plan review's span; or nothing, when ids are used up. -/
inductive Label
  | run (runId : RunId) (kind : EventKind) (payload : Payload) (env : Env)
  | task (taskId : TaskId) (kind : EventKind) (payload : Payload) (env : Env)
  | queue (kind : EventKind) (payload : Payload) (env : Env)
  | closeReview (runId : RunId)
  | closePlanReview (planReviewId : Nat) (inferred : Bool)
  | skip (count : Nat)

/-- One write, where `taskOf` is the task of each run. -/
def Log.next (taskOf : RunId → TaskId) (log : Log) : Label → Log
  | .run runId kind payload env => log.record (some (taskOf runId)) (some runId) kind payload env
  | .task taskId kind payload env => log.record (some taskId) none kind payload env
  | .queue kind payload env => log.record none none kind payload env
  | .closeReview runId => log.closeReview (some (taskOf runId)) runId
  | .closePlanReview planReviewId inferred => log.closePlanReview planReviewId inferred
  | .skip count => { log with nextId := log.nextId + count }

/-- The log from its first row on. -/
def recorder (taskOf : RunId → TaskId) : Machine Log Label := ⟨{}, Log.next taskOf⟩

end Dagq.Sessions
