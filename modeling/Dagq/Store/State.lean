/-
# Dagq.Store.State -- the queue database: its tables, its log, and the steps transactions are made of.

One field per table, each a `Table` under its primary key; the two dependency tables are sets of
pairs.  Every operation of the store is a transaction `Tx` over this state.  A clock reading, the
liveness of a process and a fresh run id come from outside, so operations take them as arguments.
Columns that are only printed (titles of events, creation times, paths derived from the run id) are
not kept.
-/
import Dagq.Domain.Goal
import Dagq.Domain.Proposal
import Dagq.Lib.Table
import Dagq.Lib.Txn

namespace Dagq

open Lib

/-! ## Rows -/

structure GoalRow where
  goal : Goal
  proposalId : Option ProposalId := none

structure TaskRow where
  task : Task
  proposalId : Option ProposalId := none
  followUpDepth : Nat := 0

structure RunRow where
  run : TaskRun
  /-- The token of the supervisor that drives the run; it outlives the lease as a record. -/
  supervisorToken : Option Token := none

/-- Durable ownership of one run by one process. -/
structure Lease where
  token : Token
  pid : Pid
  heartbeatAt : Seconds
  deriving DecidableEq

inductive ProcessRole
  | wrapper | agent
  deriving DecidableEq

/-- A registered process of a run's session. -/
structure RunProcess where
  pid : Pid
  heartbeatAt : Seconds
  exitedAt : Option Seconds := none
  exitCode : Option Int := none

structure Supervisor where
  pid : Pid
  heartbeatAt : Seconds

/-- Why plan review holds a proposal for a person. -/
inductive ReviewHold
  | failed | concern
  deriving DecidableEq

structure ProposalRow where
  status : ProposalStatus
  owner : PlannerOwner
  submittedAt : Seconds
  reviseCount : Nat
  reviewHold : Option ReviewHold := none
  reviseReasons : Option (List String) := none
  revisedAt : Option Seconds := none
  reviseSentAt : Option Seconds := none
  unresponsiveAt : Option Seconds := none

/-- How a plan review ended. -/
inductive PlanReviewOutcome
  | decided (decision : PlanReviewDecision)
  | failed
  | interrupted
  deriving DecidableEq

structure PlanReviewRow where
  proposalId : ProposalId
  attempt : Nat
  supervisorToken : Token
  startedAt : Seconds
  finishedAt : Option Seconds := none
  outcome : Option PlanReviewOutcome := none
  /-- The reasons of the verdict, once there is one. -/
  reasons : Option (List String) := none

/-- The queue. -/
structure Store where
  goals : Table GoalId GoalRow
  tasks : Table TaskId TaskRow
  /-- `(task, predecessor)`. -/
  taskDependencies : List (TaskId × TaskId)
  /-- `(task, goal)`. -/
  taskGoalDependencies : List (TaskId × GoalId)
  runs : Table RunId RunRow
  leases : Table RunId Lease
  processes : Table (RunId × ProcessRole) RunProcess
  supervisors : Table Token Supervisor
  proposals : Table ProposalId ProposalRow
  planReviews : Table PlanReviewId PlanReviewRow
  asks : Table AskId Ask
  draftOrigins : Table TaskId DraftOrigin
  events : List Event

/-- A queue just initialised. -/
def Store.init : Store where
  goals := ∅
  tasks := ∅
  taskDependencies := []
  taskGoalDependencies := []
  runs := ∅
  leases := ∅
  processes := ∅
  supervisors := ∅
  proposals := ∅
  planReviews := ∅
  asks := ∅
  draftOrigins := ∅
  events := []

/-- Why an operation is refused. -/
inductive StoreError
  /-- A rule of the domain. -/
  | domain (error : DomainError)
  /-- A check of the store, with its message. -/
  | refused (message : String)
  /-- A constraint of the schema. -/
  | constraint (name : String)
  /-- The operation found nothing to do and its transaction was dropped (`Ok(None)`). -/
  | notTaken

/-- A transaction of the queue. -/
abbrev Tx (α : Type) : Type := Txn Store StoreError α

/-- A lease no longer has a working process behind it after this long without a heartbeat. -/
def heartbeatTimeoutSecs : Seconds := 30

/-- Whether a lease no longer has a working process behind it. -/
def Lease.isStale (lease : Lease) (alive : Pid → Bool) (now : Seconds) : Bool :=
  !alive lease.pid || heartbeatTimeoutSecs < now - lease.heartbeatAt

namespace Store

/-! ## Reads -/

/-- The events of one run, oldest first. -/
def runEventsOf (s : Store) (id : RunId) : List EventBody :=
  (s.events.filter fun e => e.runId = some id).map Event.body

/-- The events of one task, its runs' included, oldest first. -/
def taskEventsOf (s : Store) (id : TaskId) : List EventBody :=
  (s.events.filter fun e => e.taskId = some id).map Event.body

/-- Whether the task owns a run that is executing, awaiting or undergoing integration, or waiting for
a session. -/
def hasUnfinishedRun (s : Store) (taskId : TaskId) : Bool :=
  s.runs.any fun _ row => row.run.taskId = taskId && row.run.status.unfinished

/-- The task's latest run, by insertion. -/
def latestRun (s : Store) (taskId : TaskId) : Option RunId :=
  (s.runs.last? fun _ row => row.run.taskId = taskId).map Prod.fst

def taskStatus (s : Store) (taskId : TaskId) : Option TaskStatus :=
  (s.tasks.get? taskId).map fun row => row.task.status

/-- Whose lease the run is under. -/
def holder (s : Store) (id : RunId) : Option Token := (s.leases.get? id).map Lease.token

end Store

/-! ## Steps -/

/-- The result of a domain command, its rejection included. -/
@[reducible] def Tx.domain {α : Type} (r : Except DomainError α) : Tx α :=
  Txn.lift (r.mapError StoreError.domain)

theorem mapError_ok {α ε ε' : Type} {f : ε → ε'} {r : Except ε α} {a : α} :
    r.mapError f = .ok a ↔ r = .ok a := by
  cases r <;> simp [Except.mapError]

/-- Refuse with a message unless `c` holds. -/
@[reducible] def Tx.ensure (c : Prop) [Decidable c] (message : String) : Tx Unit :=
  Txn.ensure c (.refused message)

/-- The transaction is dropped unless `c` holds. -/
@[reducible] def Tx.takenIf (c : Prop) [Decidable c] : Tx Unit := Txn.ensure c .notTaken

def readTask (id : TaskId) : Tx TaskRow := do
  Txn.found (.refused s!"task {id} does not exist") (← Txn.read fun s => s.tasks.get? id)

def readGoal (id : GoalId) : Tx GoalRow := do
  Txn.found (.refused s!"goal {id} does not exist") (← Txn.read fun s => s.goals.get? id)

/-- The run as stored, for a command to start from. -/
def readRun (id : RunId) (refusal : String) : Tx RunRow := do
  Txn.found (.refused refusal) (← Txn.read fun s => s.runs.get? id)

/-- Append a row to the log. -/
def record (event : Event) : Tx Unit := Txn.write fun s => { s with events := s.events ++ [event] }

/-- A notice on a task. -/
@[reducible] def taskNotice (taskId : TaskId) (notice : Notice) : Tx Unit :=
  record { taskId := some taskId, body := .notice notice }

/-- A notice on a goal. -/
@[reducible] def goalNotice (goalId : GoalId) (notice : Notice) : Tx Unit :=
  record { goalId := some goalId, body := .notice notice }

/-- A notice on a run of a task. -/
@[reducible] def noticeOn (taskId : Option TaskId) (runId : Option RunId) (notice : Notice) :
    Tx Unit :=
  record { taskId := taskId, runId := runId, body := .notice notice }

/-- An event of a run goes to its task too. -/
def runEvent (id : RunId) (body : EventBody) : Tx Unit := do
  let row ← readRun id s!"run {id} does not exist"
  record { taskId := some row.run.taskId, runId := some id, body := body }

/-- A notice on a run. -/
@[reducible] def runNotice (id : RunId) (notice : Notice) : Tx Unit := runEvent id (.notice notice)

/-! ## What the reads found -/

@[simp] theorem readTask_ok {id : TaskId} {row : TaskRow} {s s' : Store} :
    readTask id s = .ok (row, s') ↔ s.tasks.get? id = some row ∧ s = s' := by
  simp [readTask]

@[simp] theorem readRun_ok {id : RunId} {refusal : String} {row : RunRow} {s s' : Store} :
    readRun id refusal s = .ok (row, s') ↔ s.runs.get? id = some row ∧ s = s' := by
  simp [readRun]

@[simp] theorem record_ok {event : Event} {u : Unit} {s s' : Store} :
    record event s = .ok (u, s') ↔ { s with events := s.events ++ [event] } = s' := by
  simp [record]

theorem runEvent_ok {id : RunId} {body : EventBody} {u : Unit} {s s' : Store} :
    runEvent id body s = .ok (u, s') ↔
      ∃ row, s.runs.get? id = some row ∧
        { s with events := s.events ++
            [{ taskId := some row.run.taskId, runId := some id, body := body }] } = s' := by
  simp only [runEvent, Txn.bind_ok, readRun_ok, record_ok]
  constructor
  · rintro ⟨row, _, ⟨hrow, rfl⟩, rfl⟩
    exact ⟨row, hrow, rfl⟩
  · rintro ⟨row, hrow, rfl⟩
    exact ⟨row, s, ⟨hrow, rfl⟩, rfl⟩

theorem readTask_bind {β : Type} {id : TaskId} {k : TaskRow → Tx β} {s : Store} {r : β × Store} :
    (readTask id >>= k) s = .ok r ↔ ∃ row, s.tasks.get? id = some row ∧ k row s = .ok r := by
  rw [readTask, bind_assoc, Txn.read_bind, Txn.found_bind]

theorem readGoal_bind {β : Type} {id : GoalId} {k : GoalRow → Tx β} {s : Store} {r : β × Store} :
    (readGoal id >>= k) s = .ok r ↔ ∃ row, s.goals.get? id = some row ∧ k row s = .ok r := by
  rw [readGoal, bind_assoc, Txn.read_bind, Txn.found_bind]

theorem readRun_bind {β : Type} {id : RunId} {refusal : String} {k : RunRow → Tx β} {s : Store}
    {r : β × Store} :
    (readRun id refusal >>= k) s = .ok r ↔
      ∃ row, s.runs.get? id = some row ∧ k row s = .ok r := by
  rw [readRun, bind_assoc, Txn.read_bind, Txn.found_bind]

theorem domain_bind {α β : Type} {x : Except DomainError α} {k : α → Tx β} {s : Store}
    {r : β × Store} :
    (Tx.domain x >>= k) s = .ok r ↔ ∃ a, x = .ok a ∧ k a s = .ok r := by
  rw [Tx.domain, Txn.lift_bind]
  simp only [mapError_ok]

theorem domain_ok {α : Type} {r : Except DomainError α} {a : α} {s s' : Store} :
    Tx.domain r s = .ok (a, s') ↔ r = .ok a ∧ s = s' := by
  rw [Tx.domain, Txn.lift_ok, mapError_ok]

/-! ## What the steps move -/

section Moves

variable {R : Store → Store → Prop} [IsPreorder Store R]

instance readTask_moves (id : TaskId) : Txn.Moves R (readTask id) := by
  unfold readTask
  infer_instance

instance readGoal_moves (id : GoalId) : Txn.Moves R (readGoal id) := by
  unfold readGoal
  infer_instance

instance readRun_moves (id : RunId) (refusal : String) : Txn.Moves R (readRun id refusal) := by
  unfold readRun
  infer_instance

instance runEvent_moves {id : RunId} {body : EventBody}
    [∀ taskId, Txn.Moves R (record { taskId := some taskId, runId := some id, body := body })] :
    Txn.Moves R (runEvent id body) := by
  unfold runEvent
  infer_instance

end Moves

namespace Store

@[simp] theorem runEventsOf_record (s : Store) (event : Event) (id : RunId) :
    ({ s with events := s.events ++ [event] } : Store).runEventsOf id =
      if event.runId = some id then s.runEventsOf id ++ [event.body] else s.runEventsOf id := by
  simp only [runEventsOf, List.filter_append, List.map_append]
  split_ifs with h <;> simp [h]

theorem hasUnfinishedRun_iff {s : Store} {taskId : TaskId} :
    s.hasUnfinishedRun taskId = true ↔
      ∃ id row, s.runs.get? id = some row ∧ row.run.taskId = taskId ∧
        row.run.status.unfinished = true := by
  simp [hasUnfinishedRun, Table.any_iff]

theorem hasUnfinishedRun_eq_false {s : Store} {taskId : TaskId} (h : s.hasUnfinishedRun taskId = false)
    {id : RunId} {row : RunRow} (hrow : s.runs.get? id = some row) (htask : row.run.taskId = taskId) :
    row.run.status.unfinished = false := by
  by_contra hne
  have hun : s.hasUnfinishedRun taskId = true :=
    hasUnfinishedRun_iff.mpr ⟨id, row, hrow, htask, by simpa using hne⟩
  rw [h] at hun
  cases hun

end Store

end Dagq
