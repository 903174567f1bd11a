/-
# Dagq.Store.Tasks -- tasks, goals, and the graph of who waits for whom.

A task waits for its predecessor tasks and for the goals it depends on, and a goal waits for its
member tasks.  Every operation that adds an edge of any of the three kinds asks `waitsFor` first,
which follows all three kinds over the whole queue.
-/
import Dagq.Store.State
import Dagq.Lib.Graph

namespace Dagq

open Lib

/-! ## The wait graph -/

namespace Store

/-- The edges of the recursive query: predecessors, goal dependencies, and goal members. -/
def waitEdges (s : Store) : List (Node × Node) :=
  s.taskDependencies.map (fun e => (.task e.1, .task e.2))
    ++ s.taskGoalDependencies.map (fun e => (.task e.1, .goal e.2))
    ++ s.tasks.rows.filterMap fun r => r.2.task.goalId.map fun goalId => (.goal goalId, .task r.1)

/-- Whether `source` already waits for `target`, directly or not, over every task and goal: the edge
`target → source` would close a cycle. -/
def waitsFor (s : Store) (source target : Node) : Bool :=
  target ∈ Graph.reached s.waitEdges [source]

/-- The tasks of a goal, by id. -/
def tasksOfGoal (s : Store) (goalId : GoalId) : List (TaskId × TaskRow) :=
  s.tasks.select fun _ row => row.task.goalId = some goalId

/-- How many tasks of the goal are in each status. -/
def taskCounts (s : Store) (goalId : GoalId) : TaskStatusCounts :=
  .of ((s.tasksOfGoal goalId).map fun r => r.2.task.status)

/-- The task `taskId` was canceled as a duplicate of: the `duplicate_of` of its latest
`task_status_changed`, while that event canceled it. -/
def duplicateTarget (s : Store) (taskId : TaskId) : Option TaskId :=
  let latest : Option (TaskStatus × Option TaskId) := (s.taskEventsOf taskId).reverse.findSome? fun
    | .notice (.taskStatusChanged _ target duplicateOf) => some (target, duplicateOf)
    | _ => none
  match latest with
  | some (.canceled, duplicateOf) => duplicateOf
  | _ => none

/-- The canceled tasks recorded as duplicates of `taskId`, ascending. -/
def duplicatesOf (s : Store) (taskId : TaskId) : List TaskId :=
  let candidates := sorted (s.events.filterMap fun e => match e.body with
    | .notice (.taskStatusChanged _ _ duplicateOf) =>
        if duplicateOf = some taskId then
          e.taskId.filter fun t => s.taskStatus t = some .canceled
        else none
    | _ => none)
  candidates.filter fun t => s.duplicateTarget t = some taskId

end Store

/-! ## Dependencies -/

/-- Save the task under its id. -/
def saveTask (id : TaskId) (task : Task) : Tx Unit :=
  Txn.write fun s => { s with tasks := s.tasks.modify id fun row => { row with task := task } }

/-- `add_dependency`: both tasks exist, `taskId` is not claimed yet, and the predecessor does not wait
for it, through goals too. -/
def insertDependency (taskId predecessorId : TaskId) : Tx Unit := do
  Tx.domain (Task.checkNotSelf taskId predecessorId)
  let row ← readTask taskId
  Tx.domain row.task.checkDependenciesEditable
  let _ ← readTask predecessorId
  let cycle ← Txn.read fun s => s.waitsFor (.task predecessorId) (.task taskId)
  Tx.domain (Task.checkAcyclic taskId predecessorId cycle)
  let known ← Txn.read fun s => decide ((taskId, predecessorId) ∈ s.taskDependencies)
  Txn.when (known = false) do
    Txn.write fun s =>
      { s with taskDependencies := s.taskDependencies ++ [(taskId, predecessorId)] }
    taskNotice taskId (.dependencyAdded predecessorId)

/-- `add_goal_dependency`: not on the task's own goal, and not on a goal that waits for the task. -/
def insertGoalDependency (taskId : TaskId) (goalId : GoalId) : Tx Unit := do
  let row ← readTask taskId
  Tx.domain row.task.checkDependenciesEditable
  let _ ← readGoal goalId
  Tx.domain (row.task.checkNotOwnGoal goalId)
  let cycle ← Txn.read fun s => s.waitsFor (.goal goalId) (.task taskId)
  Tx.domain (Task.checkGoalAcyclic taskId goalId cycle)
  let known ← Txn.read fun s => decide ((taskId, goalId) ∈ s.taskGoalDependencies)
  Txn.when (known = false) do
    Txn.write fun s =>
      { s with taskGoalDependencies := s.taskGoalDependencies ++ [(taskId, goalId)] }
    taskNotice taskId (.goalDependencyAdded goalId)

def removeDependency (taskId predecessorId : TaskId) : Tx Unit := do
  let row ← readTask taskId
  Tx.domain row.task.checkDependenciesEditable
  let known ← Txn.read fun s => decide ((taskId, predecessorId) ∈ s.taskDependencies)
  Tx.ensure (known = true) s!"dependency {taskId} -> {predecessorId} does not exist"
  Txn.write fun s =>
    { s with taskDependencies := s.taskDependencies.filter (· ≠ (taskId, predecessorId)) }
  taskNotice taskId (.dependencyRemoved predecessorId)

def removeGoalDependency (taskId : TaskId) (goalId : GoalId) : Tx Unit := do
  let row ← readTask taskId
  Tx.domain row.task.checkDependenciesEditable
  let known ← Txn.read fun s => decide ((taskId, goalId) ∈ s.taskGoalDependencies)
  Tx.ensure (known = true) s!"dependency {taskId} -> goal {goalId} does not exist"
  Txn.write fun s =>
    { s with taskGoalDependencies := s.taskGoalDependencies.filter (· ≠ (taskId, goalId)) }
  taskNotice taskId (.goalDependencyRemoved goalId)

/-! ## Tasks -/

/-- The row of a task registered now, before its dependencies: it is in its goal already, so their
cycle checks see the goal's wait for it. -/
def insertTaskRow (new : NewTask) : Tx TaskId := do
  let id ← Txn.read fun s => s.tasks.nextId
  let task ← Tx.domain (Task.create id new)
  Txn.option task.goalId (pure ()) fun goalId => do
    let row ← readGoal goalId
    Tx.domain (Goal.checkAcceptsTasks goalId row.goal)
  Txn.write fun s => { s with tasks := s.tasks.push id { task := task } }
  taskNotice id (.taskCreated task.goalId)
  return id

/-- `add`: register a task with its dependencies. -/
def insertTask (new : NewTask) : Tx TaskId := do
  let id ← insertTaskRow new
  new.dependencies.forM fun predecessor => insertDependency id predecessor
  new.goalDependencies.forM fun goalId => insertGoalDependency id goalId
  return id

/-- Apply `action` to the task, recording `task_status_changed`: what a person's transition, plan
review and the triage share.  A task readied past plan review counts its follow-ups from 0 again. -/
def applyTransition (taskId : TaskId) (action : TaskAction) (duplicateOf : Option TaskId) :
    Tx Task := do
  let row ← readTask taskId
  let unfinished ← Txn.read fun s => s.hasUnfinishedRun taskId
  let task ← Tx.domain (row.task.transition action unfinished)
  saveTask taskId task
  Txn.when (action = .bypassReview) <| Txn.write fun s =>
    { s with tasks := s.tasks.modify taskId fun row => { row with followUpDepth := 0 } }
  taskNotice taskId (.taskStatusChanged row.task.status task.status duplicateOf)
  Txn.when (action = .bypassReview) (taskNotice taskId (.reviewBypassed row.task.status))
  return task

def transitionTask (taskId : TaskId) (action : TaskAction) : Tx Task :=
  applyTransition taskId action none

/-- `cancel --duplicate-of`: the target is another task that exists and is not canceled. -/
def cancelAsDuplicate (taskId duplicateOf : TaskId) : Tx Task := do
  Tx.ensure (taskId ≠ duplicateOf) s!"task {taskId} cannot be a duplicate of itself"
  let target ← readTask duplicateOf
  let original ← Txn.read fun s => s.duplicateTarget duplicateOf
  Tx.ensure (target.task.status ≠ .canceled) (match original with
    | some original => s!"task {duplicateOf} is canceled as a duplicate of task {original}; pass "
        ++ s!"--duplicate-of {original}"
    | none => s!"task {duplicateOf} is canceled; a duplicate needs a task that is not")
  applyTransition taskId .cancel (some duplicateOf)

/-- `set_goal`: into an open goal that the task does not wait for, or out of any. -/
def setGoal (taskId : TaskId) (goalId : Option GoalId) : Tx Unit := do
  let row ← readTask taskId
  let task ← Tx.domain (row.task.setGoal goalId)
  Txn.option goalId (pure ()) fun goalId => do
    let goal ← readGoal goalId
    Tx.domain (Goal.checkAcceptsTasks goalId goal.goal)
    Txn.when (row.task.goalId ≠ some goalId) do
      let direct ← Txn.read fun s => decide ((taskId, goalId) ∈ s.taskGoalDependencies)
      let cycle ← Txn.read fun s => s.waitsFor (.task taskId) (.goal goalId)
      Tx.domain (Task.checkMembershipAcyclic taskId goalId direct cycle)
  Txn.when (row.task.goalId ≠ goalId) do
    saveTask taskId task
    taskNotice taskId (.taskGoalChanged row.task.goalId goalId)

/-- Save what a command that changes neither status nor goal made of the task. -/
def reviseTask (taskId : TaskId) (command : Task → Except DomainError Task)
    (notice : Task → Task → Notice) : Tx Unit := do
  let row ← readTask taskId
  let task ← Tx.domain (command row.task)
  Txn.when (row.task ≠ task) do
    saveTask taskId task
    taskNotice taskId (notice row.task task)

def setPaths (taskId : TaskId) (paths : List String) : Tx Unit := do
  Tx.domain (validatePathGlobs paths)
  reviseTask taskId (·.setPaths paths) fun old new => .taskPathsChanged old.paths new.paths

def setPriority (taskId : TaskId) (priority : Priority) : Tx Unit :=
  reviseTask taskId (·.setPriority priority) fun old new =>
    .taskPriorityChanged old.priority new.priority

def editTask (taskId : TaskId) (edit : TaskEdit) : Tx Unit := do
  Tx.ensure (edit.isEmpty = false) "task edit changes nothing"
  Tx.domain edit.validate
  reviseTask taskId (Task.edit taskId · edit) fun _ _ => .taskEdited

/-- A command that changes neither the status nor the goal of a task. -/
class KeepsPlace (command : Task → Except DomainError Task) : Prop where
  of_ok : ∀ ⦃task task'⦄, command task = .ok task' →
    task'.status = task.status ∧ task'.goalId = task.goalId

instance {paths : List String} : KeepsPlace (·.setPaths paths) :=
  ⟨fun _ _ h => by rw [Task.setPaths_ok h]; exact ⟨rfl, rfl⟩⟩

instance {priority : Priority} : KeepsPlace (·.setPriority priority) :=
  ⟨fun _ _ h => by rw [Task.setPriority_ok h]; exact ⟨rfl, rfl⟩⟩

instance {taskId : TaskId} {edit : TaskEdit} : KeepsPlace (Task.edit taskId · edit) :=
  ⟨fun _ _ h => Task.edit_ok h⟩

/-! ## Goals -/

def saveGoal (id : GoalId) (goal : Goal) : Tx Unit :=
  Txn.write fun s => { s with goals := s.goals.modify id fun row => { row with goal := goal } }

def addGoal (new : NewGoal) : Tx GoalId := do
  let id ← Txn.read fun s => s.goals.nextId
  let goal ← Tx.domain (Goal.create id new)
  Txn.write fun s => { s with goals := s.goals.push id { goal := goal } }
  goalNotice id .goalCreated
  return id

def editGoal (id : GoalId) (edit : GoalEdit) : Tx Unit := do
  Tx.ensure (edit.isEmpty = false) "goal edit changes nothing"
  let row ← readGoal id
  let goal ← Tx.domain (row.goal.edit edit)
  saveGoal id goal
  goalNotice id .goalUpdated

/-- `goal close`: the tasks of the goal allow the verdict. -/
def closeGoal (id : GoalId) (verdict : GoalVerdict) : Tx Unit := do
  let row ← readGoal id
  let counts ← Txn.read fun s => s.taskCounts id
  let goal ← Tx.domain (Goal.close id row.goal verdict counts)
  saveGoal id goal
  goalNotice id (.goalClosed verdict)

/-- `goal ready`: a draft opens. -/
def readyGoal (id : GoalId) : Tx Unit := do
  let row ← readGoal id
  let goal ← Tx.domain (Goal.ready id row.goal)
  saveGoal id goal
  goalNotice id (.goalStatusChanged row.goal.status goal.status)

/-! ## Notes -/

/-- What an observation is about. -/
inductive NoteTarget
  | task (id : TaskId)
  | run (id : RunId)
  | goal (id : GoalId)

def addNote : NoteTarget → Tx Unit
  | .task id => do
      let _ ← readTask id
      taskNotice id .observation
  | .run id => runNotice id .observation
  | .goal id => do
      let _ ← readGoal id
      goalNotice id .observation

/-! Instance search sees through these operations to the steps they are made of. -/

attribute [reducible] removeDependency removeGoalDependency insertTask transitionTask
  cancelAsDuplicate setPaths setPriority editTask addNote

end Dagq
