/-
# Dagq.Domain.Task -- the task aggregate: its status machine and its commands.

A task is a value without its id: a row's id is its key in the task table, and the commands whose
rejections name the task take the id next to it.
-/
import Dagq.Domain.Values

namespace Dagq

/-! ## What a caller asks for -/

/-- A task to register. -/
structure NewTask where
  title : String
  description : String := ""
  acceptance : String := ""
  verificationCommands : List String := []
  dependencies : List TaskId := []
  /-- Goals the task waits for until each is closed as achieved; never its own goal. -/
  goalDependencies : List GoalId := []
  /-- Goal the task belongs to; must be open at registration. -/
  goalId : Option GoalId := none
  context : String := ""
  requiredEvidence : List EvidenceCheck := []
  paths : List String := []
  priority : Priority := .normal
  kind : Option TaskKind := none

namespace NewTask

def validate (new : NewTask) : Except DomainError Unit := do
  require (!isBlank new.title) (.blank "task title")
  require (new.verificationCommands.all fun s => !isBlank s) (.blank "verification commands")
  require (new.dependencies.all (0 < ·)) (.nonPositiveId "dependency IDs")
  require (new.goalId.all (0 < ·)) (.nonPositiveId "goal ID")
  require (new.goalDependencies.all (0 < ·)) (.nonPositiveId "goal dependency IDs")
  match new.goalId with
  | some goalId => require (goalId ∉ new.goalDependencies) (.ownGoalDependency goalId)
  | none => .ok ()
  validatePathGlobs new.paths

end NewTask

/-- Fields of a task to replace (`edit`); `none` keeps the current value. -/
structure TaskEdit where
  title : Option String := none
  description : Option String := none
  acceptance : Option String := none
  verificationCommands : Option (List String) := none
  requiredEvidence : Option (List EvidenceCheck) := none
  paths : Option (List String) := none
  context : Option String := none
  kind : Option TaskKind := none

namespace TaskEdit

def isEmpty (edit : TaskEdit) : Bool :=
  edit.title.isNone && edit.description.isNone && edit.acceptance.isNone
    && edit.verificationCommands.isNone && edit.requiredEvidence.isNone && edit.paths.isNone
    && edit.context.isNone && edit.kind.isNone

/-- The rules of `NewTask.validate` for the fields it replaces. -/
def validate (edit : TaskEdit) : Except DomainError Unit := do
  require (edit.title.all fun s => !isBlank s) (.blank "task title")
  require (edit.verificationCommands.all fun cs => cs.all fun s => !isBlank s)
    (.blank "verification commands")
  match edit.paths with
  | some paths => validatePathGlobs paths
  | none => .ok ()

end TaskEdit

/-! ## The aggregate -/

/-- A unit of work the queue runs. -/
structure Task where
  title : String
  description : String
  acceptance : String
  verificationCommands : List String
  requiredEvidence : List EvidenceCheck
  /-- Globs of the paths a run may change; empty: no limit. -/
  paths : List String
  priority : Priority
  kind : Option TaskKind
  status : TaskStatus
  goalId : Option GoalId
  context : String
  deriving DecidableEq

namespace TaskStatus

/-- `unfinishedRun` is whether the task still owns a run that is executing, awaiting or undergoing
integration, or waiting for a session. -/
def transition (status : TaskStatus) (action : TaskAction) (unfinishedRun : Bool) :
    Except DomainError TaskStatus :=
  match status, action with
  | .draft, .submit => .ok .submitted
  | .ready, .reopen => .ok .submitted
  | .submitted, .approve => .ok .ready
  | .draft, .bypassReview => .ok .ready
  | .submitted, .bypassReview => .ok .ready
  | .draft, .ready => .error (.readyNeedsPlanReview .draft)
  | .submitted, .ready => .error (.readyNeedsPlanReview .submitted)
  | .ready, .draft => .ok .draft
  | .submitted, .draft => .ok .draft
  | .draft, .cancel => .ok .canceled
  | .submitted, .cancel => .ok .canceled
  | .ready, .cancel => .ok .canceled
  | .inProgress, action =>
      if unfinishedRun then .error (.taskHasUnfinishedRun action)
      else match action with
        | .ready => .ok .ready
        | .draft => .ok .draft
        | .cancel => .ok .canceled
        | action => .error (.transitionNotAllowed .inProgress action)
  | status, action => .error (.transitionNotAllowed status action)

/-- Dependencies, the goal, the paths and the priority may change only before the task is
claimed. -/
def dependenciesEditable : TaskStatus → Bool
  | .draft | .submitted | .ready => true
  | _ => false

/-- Whether `edit` may change the content of the task: a draft or a submitted task. -/
def contentEditable : TaskStatus → Bool
  | .draft | .submitted => true
  | _ => false

def isTerminal : TaskStatus → Bool
  | .completed | .canceled => true
  | _ => false

/-- What a transition can do: it never leaves a terminal status, never enters `inProgress` or
`completed`, and takes an in-progress task out only when no unfinished run owns it. -/
structure Moved (unfinishedRun : Bool) (status status' : TaskStatus) : Prop where
  source_open : status.isTerminal = false
  target_ne_inProgress : status' ≠ .inProgress
  target_ne_completed : status' ≠ .completed
  no_unfinished : status = .inProgress → unfinishedRun = false

theorem transition_moved {status status' : TaskStatus} {action : TaskAction} {unfinishedRun : Bool}
    (h : status.transition action unfinishedRun = .ok status') :
    Moved unfinishedRun status status' := by
  revert h
  cases status <;> cases action <;> cases unfinishedRun <;> intro h <;>
    cases h <;> constructor <;> simp [isTerminal]

end TaskStatus

namespace Task

def requirePositive (id : TaskId) : Except DomainError Unit :=
  require (0 < id) (.nonPositiveId "task ID")

/-- A task registered now as `id`: the creation rules of `NewTask` hold, it starts as a draft, and
its required checks and path globs are kept once each. -/
def create (id : TaskId) (new : NewTask) : Except DomainError Task := do
  new.validate
  requirePositive id
  return {
    title := new.title
    description := new.description
    acceptance := new.acceptance
    verificationCommands := new.verificationCommands
    requiredEvidence := dedup new.requiredEvidence
    paths := dedup new.paths
    priority := new.priority
    kind := new.kind
    status := .draft
    goalId := new.goalId
    context := new.context }

/-- Rejects a change to `what` of a task that is already claimed or finished. -/
def requireEditable (task : Task) (what : String) : Except DomainError Unit :=
  require task.status.dependenciesEditable (.taskNotEditable what)

/-- Apply a user's `action`; `unfinishedRun` is whether the task still owns an unfinished run. -/
def transition (task : Task) (action : TaskAction) (unfinishedRun : Bool) :
    Except DomainError Task := do
  let status ← task.status.transition action unfinishedRun
  return { task with status := status }

/-- A supervisor takes the task for a new run: only a ready task is claimed. -/
def claim (taskId : TaskId) (task : Task) : Except DomainError Task := do
  require (task.status = .ready) (.taskNotClaimable taskId task.status)
  return { task with status := .inProgress }

/-- Move the task to `goalId`, or out of any goal. -/
def setGoal (task : Task) (goalId : Option GoalId) : Except DomainError Task := do
  requireEditable task "the goal"
  return { task with goalId := goalId }

/-- Replace the path globs the task may change, each kept once. -/
def setPaths (task : Task) (paths : List String) : Except DomainError Task := do
  validatePathGlobs paths
  requireEditable task "the paths"
  return { task with paths := dedup paths }

/-- Give the task another priority: only before it is claimed. -/
def setPriority (task : Task) (priority : Priority) : Except DomainError Task := do
  requireEditable task "the priority"
  return { task with priority := priority }

/-- The task with the fields of `edit` replaced: only while its status keeps the content
editable. -/
def edit (taskId : TaskId) (task : Task) (edit : TaskEdit) : Except DomainError Task := do
  edit.validate
  require task.status.contentEditable (.taskContentNotEditable taskId task.status)
  return { task with
    title := edit.title.getD task.title
    description := edit.description.getD task.description
    acceptance := edit.acceptance.getD task.acceptance
    verificationCommands := edit.verificationCommands.getD task.verificationCommands
    requiredEvidence := (edit.requiredEvidence.map dedup).getD task.requiredEvidence
    paths := (edit.paths.map dedup).getD task.paths
    context := edit.context.getD task.context
    kind := edit.kind <|> task.kind }

/-- A task never depends on itself; checked before either task is read. -/
def checkNotSelf (taskId predecessorId : TaskId) : Except DomainError Unit :=
  require (taskId != predecessorId) .selfDependency

/-- Whether the task may gain or lose a predecessor. -/
def checkDependenciesEditable (task : Task) : Except DomainError Unit :=
  requireEditable task "dependencies"

/-- `createsCycle` is whether `predecessorId` already depends on `taskId`, directly or not. -/
def checkAcyclic (taskId predecessorId : TaskId) (createsCycle : Bool) : Except DomainError Unit :=
  require (!createsCycle) (.dependencyCycle taskId predecessorId)

/-- A task never depends on the goal it belongs to: the goal already waits for it. -/
def checkNotOwnGoal (task : Task) (goalId : GoalId) : Except DomainError Unit :=
  require (task.goalId != some goalId) (.ownGoalDependency goalId)

/-- `createsCycle` is whether `goalId` already waits for `taskId`, directly or not. -/
def checkGoalAcyclic (taskId : TaskId) (goalId : GoalId) (createsCycle : Bool) :
    Except DomainError Unit :=
  require (!createsCycle) (.goalDependencyCycle taskId goalId)

/-- Whether the task, moved to `goalId`, keeps the graph acyclic: `dependsOnGoal` is whether it
depends on that goal directly, `createsCycle` whether it waits for the goal at all. -/
def checkMembershipAcyclic (taskId : TaskId) (goalId : GoalId) (dependsOnGoal createsCycle : Bool) :
    Except DomainError Unit := do
  require (!dependsOnGoal) (.ownGoalDependency goalId)
  require (!createsCycle) (.goalMembershipCycle taskId goalId)

/-! ## What the commands do -/

theorem create_ok {id : TaskId} {new : NewTask} {task : Task} (h : create id new = .ok task) :
    task.status = .draft ∧ task.goalId = new.goalId := by
  simp only [create, except_bind_ok, except_pure_ok] at h
  obtain ⟨_, _, _, _, rfl⟩ := h
  exact ⟨rfl, rfl⟩

theorem transition_ok {task task' : Task} {action : TaskAction} {unfinishedRun : Bool} :
    task.transition action unfinishedRun = .ok task' ↔
      ∃ status, task.status.transition action unfinishedRun = .ok status ∧
        { task with status := status } = task' := by
  simp only [transition, except_bind_ok, except_pure_ok]

theorem claim_ok {taskId : TaskId} {task task' : Task} :
    claim taskId task = .ok task' ↔
      task.status = .ready ∧ { task with status := .inProgress } = task' := by
  simp [claim]

theorem setGoal_ok {task task' : Task} {goalId : Option GoalId} :
    task.setGoal goalId = .ok task' ↔
      task.status.dependenciesEditable ∧ { task with goalId := goalId } = task' := by
  simp [setGoal, requireEditable]

theorem setPaths_ok {task task' : Task} {paths : List String} (h : task.setPaths paths = .ok task') :
    task' = { task with paths := dedup paths } := by
  simp only [setPaths, except_bind_ok, except_pure_ok] at h
  obtain ⟨_, _, _, _, rfl⟩ := h
  rfl

theorem setPriority_ok {task task' : Task} {priority : Priority}
    (h : task.setPriority priority = .ok task') : task' = { task with priority := priority } := by
  simp only [setPriority, except_bind_ok, except_pure_ok] at h
  obtain ⟨_, _, rfl⟩ := h
  rfl

/-- An edit replaces content only: never the status or the goal. -/
theorem edit_ok {taskId : TaskId} {task task' : Task} {e : TaskEdit}
    (h : edit taskId task e = .ok task') :
    task'.status = task.status ∧ task'.goalId = task.goalId := by
  simp only [edit, except_bind_ok, except_pure_ok] at h
  obtain ⟨_, _, _, _, rfl⟩ := h
  exact ⟨rfl, rfl⟩

@[simp] theorem checkDependenciesEditable_ok {task : Task} {u : Unit} :
    task.checkDependenciesEditable = .ok u ↔ task.status.dependenciesEditable = true := by
  simp [checkDependenciesEditable, requireEditable]

@[simp] theorem checkAcyclic_ok {taskId predecessorId : TaskId} {cycle : Bool} {u : Unit} :
    checkAcyclic taskId predecessorId cycle = .ok u ↔ cycle = false := by
  simp [checkAcyclic]

@[simp] theorem checkGoalAcyclic_ok {taskId : TaskId} {goalId : GoalId} {cycle : Bool} {u : Unit} :
    checkGoalAcyclic taskId goalId cycle = .ok u ↔ cycle = false := by
  simp [checkGoalAcyclic]

@[simp] theorem checkMembershipAcyclic_ok {taskId : TaskId} {goalId : GoalId} {direct cycle : Bool}
    {u : Unit} :
    checkMembershipAcyclic taskId goalId direct cycle = .ok u ↔ direct = false ∧ cycle = false := by
  simp [checkMembershipAcyclic]

end Task

end Dagq
