/-
# Dagq.Queue.Board -- what the queue is about, without tables, leases or logs.

A board says which tasks, goals and runs there are, where each of them stands, and who waits for whom.
It changes by the fourteen steps below and by no others; each step says under which circumstances it
is taken.  Two of them depend on a policy, because the queue itself does not guard them: a recovery
that brings a run back to life, and a landing that is called off with the run left waiting to land.
Everything a board promises is an invariant of these steps, whatever their order.
-/
import Dagq.Domain.Goal
import Dagq.Domain.Run
import Dagq.Lib.Graph
import Mathlib.Logic.Function.Basic

namespace Dagq

open Lib Relation

/-- Where a task stands. -/
structure TaskView where
  status : TaskStatus
  goalId : Option GoalId

/-- Where a run stands: `accepted` is the commit its latest validation accepted, if it did, and
`landedFrom` the status its latest landing began from. -/
structure RunView where
  taskId : TaskId
  status : RunStatus
  resultCommit : Option CommitSha
  accepted : Option (Option CommitSha)
  landedFrom : Option RunStatus

/-- The state of the work.  A goal's entry is its verdict, once it is closed. -/
structure Board where
  task : TaskId → Option TaskView
  goal : GoalId → Option (Option GoalVerdict)
  run : RunId → Option RunView
  latest : TaskId → Option RunId
  needs : TaskId → TaskId → Prop
  needsGoal : TaskId → GoalId → Prop

namespace Board

/-- Nothing registered yet. -/
def empty : Board where
  task _ := none
  goal _ := none
  run _ := none
  latest _ := none
  needs _ _ := False
  needsGoal _ _ := False

/-- Who waits for whom: a task for its predecessors and the goals it depends on, a goal for its
members. -/
inductive Waits (b : Board) : Node → Node → Prop
  | predecessor {t p : TaskId} : b.needs t p → Waits b (.task t) (.task p)
  | goal {t : TaskId} {g : GoalId} : b.needsGoal t g → Waits b (.task t) (.goal g)
  | member {t : TaskId} {g : GoalId} {v : TaskView} :
      b.task t = some v → v.goalId = some g → Waits b (.goal g) (.task t)

/-! ## The steps -/

def setTask (b : Board) (t : TaskId) (v : TaskView) : Board :=
  { b with task := Function.update b.task t (some v) }

def setGoal (b : Board) (g : GoalId) (verdict : Option GoalVerdict) : Board :=
  { b with goal := Function.update b.goal g (some verdict) }

def setRun (b : Board) (r : RunId) (v : RunView) : Board :=
  { b with run := Function.update b.run r (some v) }

/-- When the two steps the queue leaves unguarded are taken. -/
structure Policy where
  /-- A recovery sends the run back to a session. -/
  revive : Board → RunId → Prop
  /-- The landing of the run ends with the run waiting to land. -/
  callOff : Board → RunId → Prop

/-- Both steps may be taken at any time. -/
def Policy.any : Policy := ⟨fun _ _ => True, fun _ _ => True⟩

/-- Where a run may work its way to: it is neither waiting to land nor landing nor landed. -/
def isWorkTarget : RunStatus → Bool
  | .claimed | .awaitingIntegration | .integrating | .integrated => false
  | _ => true

/-- No run of the task is under way. -/
def Idle (b : Board) (t : TaskId) : Prop :=
  ∀ r v, b.run r = some v → v.taskId = t → v.status.unfinished = false

/-- One step of the board. -/
inductive Step (P : Policy) (b : Board) : Board → Prop
  /-- A draft is registered, into an open goal or into none. -/
  | addTask (t : TaskId) (goalId : Option GoalId) (fresh : b.task t = none)
      (goal : ∀ g, goalId = some g → b.goal g = some none) :
      Step P b (b.setTask t ⟨.draft, goalId⟩)
  /-- A person or plan review moves a task: never into work, and out of it only when no run is. -/
  | moveTask (t : TaskId) (v : TaskView) (status : TaskStatus) (found : b.task t = some v)
      (source : v.status.isTerminal = false)
      (target : status ≠ .inProgress ∧ status ≠ .completed)
      (idle : v.status = .inProgress → b.Idle t) :
      Step P b (b.setTask t { v with status := status })
  /-- An unclaimed task moves into an open goal it does not wait for, or out of any. -/
  | joinGoal (t : TaskId) (v : TaskView) (goalId : Option GoalId) (found : b.task t = some v)
      (editable : v.status.dependenciesEditable = true)
      (goal : ∀ g, goalId = some g → b.goal g = some none ∧ ¬ReflTransGen b.Waits (.task t) (.goal g)) :
      Step P b (b.setTask t { v with goalId := goalId })
  /-- An unclaimed task waits for a task that does not wait for it. -/
  | need (t p : TaskId) (v w : TaskView) (found : b.task t = some v) (other : b.task p = some w)
      (editable : v.status.dependenciesEditable = true)
      (acyclic : ¬ReflTransGen b.Waits (.task p) (.task t)) :
      Step P b { b with needs := fun x y => b.needs x y ∨ (x = t ∧ y = p) }
  /-- An unclaimed task waits for a goal that does not wait for it. -/
  | needGoal (t : TaskId) (g : GoalId) (v : TaskView) (verdict : Option GoalVerdict)
      (found : b.task t = some v) (goal : b.goal g = some verdict)
      (editable : v.status.dependenciesEditable = true)
      (acyclic : ¬ReflTransGen b.Waits (.goal g) (.task t)) :
      Step P b { b with needsGoal := fun x y => b.needsGoal x y ∨ (x = t ∧ y = g) }
  | unneed (t p : TaskId) :
      Step P b { b with needs := fun x y => b.needs x y ∧ (x, y) ≠ (t, p) }
  | unneedGoal (t : TaskId) (g : GoalId) :
      Step P b { b with needsGoal := fun x y => b.needsGoal x y ∧ (x, y) ≠ (t, g) }
  | addGoal (g : GoalId) (fresh : b.goal g = none) : Step P b (b.setGoal g none)
  /-- An open goal is closed, once, when its members allow the verdict. -/
  | closeGoal (g : GoalId) (verdict : GoalVerdict) (opened : b.goal g = some none)
      (members : ∀ t v, b.task t = some v → v.goalId = some g → verdict.allows v.status = true) :
      Step P b (b.setGoal g (some verdict))
  /-- A ready task whose predecessors are completed and whose goals are achieved gets a run. -/
  | claim (t : TaskId) (r : RunId) (v : TaskView) (w : RunView) (found : b.task t = some v)
      (ready : v.status = .ready) (idle : b.Idle t)
      (needs : ∀ p u, b.needs t p → b.task p = some u → u.status = .completed)
      (goals : ∀ g verdict, b.needsGoal t g → b.goal g = some verdict → verdict = some .achieved)
      (fresh : b.run r = none)
      (view : w.taskId = t ∧ w.status = .claimed) :
      Step P b { (b.setTask t { v with status := .inProgress }).setRun r w with
        latest := Function.update b.latest t (some r) }
  /-- A run under way works, waits for a session or ends without landing. -/
  | work (r : RunId) (v : RunView) (status : RunStatus) (found : b.run r = some v)
      (source : v.status.unfinished = true) (target : isWorkTarget status = true) :
      Step P b (b.setRun r { v with status := status })
  /-- A validation accepts a commit of the run or refuses it. -/
  | validate (r : RunId) (v : RunView) (status : RunStatus) (commit : Option CommitSha)
      (accepted : Bool) (found : b.run r = some v) (source : v.status = .validating)
      (accept : accepted = true → status = .awaitingIntegration ∧ commit.isSome = true)
      (reject : accepted = false → status = .needsSession ∨ status = .failed) :
      Step P b (b.setRun r { v with
        status := status, resultCommit := commit
        accepted := some (if accepted = true then commit else none) })
  | beginLanding (r : RunId) (v : RunView) (found : b.run r = some v)
      (source : v.status = .awaitingIntegration ∨ v.status = .needsSession) :
      Step P b (b.setRun r { v with status := .integrating, landedFrom := some v.status })
  /-- A landing is called off and the run waits to land. -/
  | callOff (r : RunId) (v : RunView) (found : b.run r = some v) (source : v.status = .integrating)
      (allowed : P.callOff b r) :
      Step P b (b.setRun r { v with status := .awaitingIntegration })
  /-- The run landed: it is integrated and its task completed together. -/
  | finishLanding (r : RunId) (v : RunView) (w : TaskView) (commit : CommitSha)
      (found : b.run r = some v) (source : v.status = .integrating)
      (task : b.task v.taskId = some w) (inProgress : w.status = .inProgress) :
      Step P b ((b.setRun r { v with status := .integrated, resultCommit := some commit }).setTask
        v.taskId { w with status := .completed })
  /-- A recovery sends a failed or interrupted run back to a session. -/
  | revive (r : RunId) (v : RunView) (found : b.run r = some v)
      (source : v.status = .failed ∨ v.status = .interrupted) (allowed : P.revive b r) :
      Step P b (b.setRun r { v with status := .needsSession })

section Views

variable {b : Board}

@[simp] theorem setTask_task {t x : TaskId} {v : TaskView} :
    (b.setTask t v).task x = if x = t then some v else b.task x := by
  simp [setTask, Function.update_apply]

@[simp] theorem setGoal_goal {g x : GoalId} {verdict : Option GoalVerdict} :
    (b.setGoal g verdict).goal x = if x = g then some verdict else b.goal x := by
  simp [setGoal, Function.update_apply]

@[simp] theorem setRun_run {r x : RunId} {v : RunView} :
    (b.setRun r v).run x = if x = r then some v else b.run x := by
  simp [setRun, Function.update_apply]

@[simp] theorem setTask_run {t : TaskId} {v : TaskView} : (b.setTask t v).run = b.run := rfl
@[simp] theorem setTask_goal {t : TaskId} {v : TaskView} : (b.setTask t v).goal = b.goal := rfl
@[simp] theorem setTask_latest {t : TaskId} {v : TaskView} : (b.setTask t v).latest = b.latest := rfl
@[simp] theorem setTask_needs {t : TaskId} {v : TaskView} : (b.setTask t v).needs = b.needs := rfl
@[simp] theorem setTask_needsGoal {t : TaskId} {v : TaskView} :
    (b.setTask t v).needsGoal = b.needsGoal := rfl
@[simp] theorem setRun_task {r : RunId} {v : RunView} : (b.setRun r v).task = b.task := rfl
@[simp] theorem setRun_goal {r : RunId} {v : RunView} : (b.setRun r v).goal = b.goal := rfl
@[simp] theorem setRun_latest {r : RunId} {v : RunView} : (b.setRun r v).latest = b.latest := rfl
@[simp] theorem setRun_needs {r : RunId} {v : RunView} : (b.setRun r v).needs = b.needs := rfl
@[simp] theorem setRun_needsGoal {r : RunId} {v : RunView} :
    (b.setRun r v).needsGoal = b.needsGoal := rfl
@[simp] theorem setGoal_task {g : GoalId} {verdict : Option GoalVerdict} :
    (b.setGoal g verdict).task = b.task := rfl
@[simp] theorem setGoal_run {g : GoalId} {verdict : Option GoalVerdict} :
    (b.setGoal g verdict).run = b.run := rfl
@[simp] theorem setGoal_latest {g : GoalId} {verdict : Option GoalVerdict} :
    (b.setGoal g verdict).latest = b.latest := rfl
@[simp] theorem setGoal_needs {g : GoalId} {verdict : Option GoalVerdict} :
    (b.setGoal g verdict).needs = b.needs := rfl
@[simp] theorem setGoal_needsGoal {g : GoalId} {verdict : Option GoalVerdict} :
    (b.setGoal g verdict).needsGoal = b.needsGoal := rfl

end Views

end Board

end Dagq
