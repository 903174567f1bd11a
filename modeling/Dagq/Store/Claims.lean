/-
# Dagq.Store.Claims -- which task is claimed next, and the claim.

The candidates are what the ready query selects; the claim order ranks them by the priority they
inherit from the ready tasks that wait for them, then by how many unfinished tasks they hold up, then
by id.
-/
import Dagq.Store.Runs

namespace Dagq

open Lib

/-! ## Candidates -/

namespace Store

def goalIsDraft (s : Store) (goalId : GoalId) : Bool :=
  (s.goals.get? goalId).any fun row => row.goal.status = .draft

/-- Only a goal closed as achieved releases the tasks that wait for it. -/
def goalIsAchieved (s : Store) (goalId : GoalId) : Bool :=
  (s.goals.get? goalId).any fun row => row.goal.verdict = some .achieved

/-- The ready query: a ready task outside a draft goal whose predecessors are completed, whose goal
dependencies are all closed as achieved, and that owns no unfinished run. -/
def isCandidate (s : Store) (id : TaskId) (row : TaskRow) : Bool :=
  row.task.status = .ready
    && !row.task.goalId.any s.goalIsDraft
    && !(s.taskDependencies.any fun e => e.1 = id &&
      (s.tasks.get? e.2).any fun p => p.task.status != .completed)
    && !(s.taskGoalDependencies.any fun e => e.1 = id &&
      ((s.goals.get? e.2).isSome && !s.goalIsAchieved e.2))
    && !s.hasUnfinishedRun id

/-- The claimable tasks, in id order. -/
def readyTasks (s : Store) : List TaskId := sorted ((s.tasks.select s.isCandidate).map Prod.fst)

end Store

/-! ## The claim order -/

/-- An unfinished task as the claim order reads it: `goalWaits` are the goals it depends on that are
not closed. -/
structure GraphTask where
  id : TaskId
  status : TaskStatus
  priority : Priority
  goalId : Option GoalId
  goalStatus : Option GoalStatus
  dependsOn : List TaskId
  goalWaits : List GoalId

/-- The unfinished tasks, in id order. -/
def Store.graphTasks (s : Store) : List GraphTask :=
  let rows := s.tasks.select fun _ row => !row.task.status.isTerminal
  rows.map fun r => {
    id := r.1
    status := r.2.task.status
    priority := r.2.task.priority
    goalId := r.2.task.goalId
    goalStatus := r.2.task.goalId.bind fun g => (s.goals.get? g).map fun row => row.goal.status
    dependsOn := (s.taskDependencies.filter fun e => e.1 = r.1).map Prod.snd
    goalWaits := ((s.taskGoalDependencies.filter fun e => e.1 = r.1).map Prod.snd).filter fun g =>
      (s.goals.get? g).any fun row => row.goal.verdict.isNone }

namespace GraphTask

/-- Whether the unfinished task `waiter` depends on `task` directly, or on a goal `task` belongs to
that is not closed. -/
def blocks (task waiter : GraphTask) : Bool :=
  task.id ∈ waiter.dependsOn || task.goalId.any (· ∈ waiter.goalWaits)

/-- The edges from each unfinished task to the ones it blocks. -/
def edges (tasks : List GraphTask) : List (TaskId × TaskId) :=
  tasks.flatMap fun task => (tasks.filter task.blocks).map fun waiter => (task.id, waiter.id)

/-- The unfinished tasks that wait for `task`, directly or transitively. -/
def waiters (tasks : List GraphTask) (task : GraphTask) : List GraphTask :=
  let reached := Graph.reached (edges tasks) ((tasks.filter task.blocks).map GraphTask.id)
  tasks.filter fun waiter => waiter.id ∈ reached

/-- The highest of the task's own priority and those of the ready tasks outside a draft goal that wait
for it. -/
def effectivePriority (own : Priority) (waiters : List GraphTask) : Nat :=
  (waiters.filter fun w => w.status = .ready && w.goalStatus != some .draft).foldl
    (fun highest w => max highest w.priority.asI64) own.asI64

/-- Where a task stands in the claim order. -/
structure ClaimRank where
  priority : Nat
  unblocks : Nat
  id : TaskId

def rank (tasks : List GraphTask) (task : GraphTask) : ClaimRank :=
  let waiting := waiters tasks task
  { priority := effectivePriority task.priority waiting, unblocks := waiting.length, id := task.id }

/-- Highest priority first, then most tasks released, then lowest id. -/
def ClaimRank.before (a b : ClaimRank) : Bool :=
  if a.priority ≠ b.priority then b.priority < a.priority
  else if a.unblocks ≠ b.unblocks then b.unblocks < a.unblocks
  else a.id ≤ b.id

end GraphTask

/-- The claimable tasks in the order every claim takes them. -/
def Store.claimOrder (s : Store) : List TaskId :=
  let tasks := s.graphTasks
  let ranks := (tasks.filter fun task => task.id ∈ s.readyTasks).map (GraphTask.rank tasks)
  (ranks.insertionSort fun a b => a.before b = true).map GraphTask.ClaimRank.id

/-! ## The claim -/

/-- The first task of `order` that is claimable, else the first one in claim order. -/
def Store.nextClaim (s : Store) (order : List TaskId) : Option TaskId :=
  let ready := s.readyTasks
  order.find? (· ∈ ready) <|> s.claimOrder.find? (· ∈ ready) <|> ready.head?

/-- Reserve a dependency-ready task for the run `runId` (a fresh id).  With no ready task nothing is
written. -/
def claimTask (runId : RunId) (baseCommit : CommitSha) (order : List TaskId) : Tx TaskId := do
  let taskId ← Txn.found .notTaken (← Txn.read fun s => s.nextClaim order)
  let row ← readTask taskId
  let task ← Tx.domain (Task.claim taskId row.task)
  let run ← Tx.domain (TaskRun.create taskId task baseCommit)
  saveTask taskId task
  insertRun runId run
  runNotice runId .runClaimed
  return taskId

/-- The claim of a supervisor: the run, its supervisor and its lease are created together. -/
def claimForSupervisor (runId : RunId) (baseCommit : CommitSha) (order : List TaskId) (token : Token)
    (pid : Pid) (now : Seconds) : Tx Unit := do
  let _ ← claimTask runId baseCommit order
  setSupervisor runId token
  insertLease runId { token := token, pid := pid, heartbeatAt := now }
  runNotice runId (.leaseAcquired "claim" none)

/-! ## What a candidate is -/

theorem Store.nextClaim_isCandidate {s : Store} {order : List TaskId} {id : TaskId}
    (h : s.nextClaim order = some id) :
    ∃ row, s.tasks.get? id = some row ∧ s.isCandidate id row = true := by
  have hready : id ∈ s.readyTasks := by
    unfold nextClaim at h
    cases hfirst : order.find? (· ∈ s.readyTasks) with
    | some a =>
        simp only [hfirst, Option.orElse_eq_orElse, Option.orElse_some, Option.some.injEq] at h
        subst h
        simpa using List.find?_some hfirst
    | none =>
        cases hnext : s.claimOrder.find? (· ∈ s.readyTasks) with
        | some a =>
            simp only [hfirst, hnext, Option.orElse_eq_orElse, Option.orElse_none,
              Option.orElse_some, Option.some.injEq] at h
            subst h
            simpa using List.find?_some hnext
        | none =>
            simp only [hfirst, hnext, Option.orElse_eq_orElse, Option.orElse_none] at h
            exact List.mem_of_head? h
  obtain ⟨⟨id', row⟩, hmem, rfl⟩ := List.mem_map.mp (mem_sorted.mp hready)
  exact ⟨row, Table.mem_select.mp hmem⟩

/-! Instance search sees through these operations to the steps they are made of. -/

attribute [reducible] claimForSupervisor

end Dagq
