/-
# Dagq.Queue.Aside -- what happens next to the tasks, the goals, the proposals and the asks.

Operations on dependencies, runs, leases and processes write tables of their own and record events that
say nothing about where a task, an ask or a plan review stands, or how often a run was resumed.  A
relation between stores that looks past all of this is aloof from it, and instance search walks those
operations for every such relation; one that looks past the goals too gets the operations on goals.
-/
import Dagq.Queue.Op

namespace Dagq

open Lib

/-! ## Telling events -/

/-- Whether the notice says where a task, an ask or a plan review stands, or that a run is resumed. -/
@[reducible] def Notice.tells : Notice → Bool
  | .resumeStarted .. | .taskStatusChanged .. | .taskEdited | .taskCanceledAsDuplicate _
  | .planReviewStarted .. | .planReviewFinished .. | .planReviewDiscarded .. | .planReviewFailed ..
  | .triageDecided .. | .planDecided .. | .plannerAnswerClosed _
  | .askOpened .. | .askAnswered .. | .askClosed .. | .askDelivered _ | .askUpdated .. => true
  | _ => false

@[reducible] def EventBody.tells : EventBody → Bool
  | .notice said => said.tells
  | _ => false

/-- A flag that is off; instance search evaluates it. -/
class Off (flag : Bool) : Prop where
  eq_false : flag = false

instance : Off false := ⟨rfl⟩

/-! ## Standing aside -/

/-- The goals, the tasks, the proposals, their reviews and the asks are as they were, and no event
recorded since tells of one. -/
structure Aside (s s' : Store) : Prop where
  goals : s'.goals = s.goals
  tasks : s'.tasks = s.tasks
  proposals : s'.proposals = s.proposals
  planReviews : s'.planReviews = s.planReviews
  asks : s'.asks = s.asks
  events : ∃ es, s'.events = s.events ++ es ∧ ∀ e ∈ es, e.body.tells = false

/-- A relation that looks at goals, tasks, proposals, plan reviews, asks and telling events only. -/
class Aloof (R : Store → Store → Prop) : Prop where
  of_aside : ∀ {s s'}, Aside s s' → R s s'

/-- A relation that does not look at goals. -/
class GoalBlind (R : Store → Store → Prop) : Prop where
  of_goals : ∀ {s goals}, R s { s with goals := goals }

/-- A relation that sees no change of a task but those of its status and its proposal. -/
class StatusBound (R : Store → Store → Prop) : Prop where
  of_modify : ∀ {s : Store} {id : TaskId} {f : TaskRow → TaskRow},
    (∀ row, s.tasks.get? id = some row →
      (f row).task.status = row.task.status ∧ (f row).proposalId = row.proposalId) →
    R s { s with tasks := s.tasks.modify id f }

/-! ## Operations -/

section Operations

variable {R : Store → Store → Prop} [Aloof R]

set_option synthInstance.maxSize 100000

instance aside_write {taskDependencies : Store → List (TaskId × TaskId)}
    {taskGoalDependencies : Store → List (TaskId × GoalId)} {runs : Store → Table RunId RunRow}
    {leases : Store → Table RunId Lease}
    {processes : Store → Table (RunId × ProcessRole) RunProcess}
    {supervisors : Store → Table Token Supervisor}
    {draftOrigins : Store → Table TaskId DraftOrigin} :
    Txn.Moves R (Txn.write fun s => Store.mk s.goals s.tasks (taskDependencies s)
      (taskGoalDependencies s) (runs s) (leases s) (processes s) (supervisors s) s.proposals
      s.planReviews s.asks (draftOrigins s) s.events : Tx Unit) :=
  .of_write fun _ =>
    Aloof.of_aside ⟨rfl, rfl, rfl, rfl, rfl, [], (List.append_nil _).symm, by simp⟩

instance aside_record {event : Event} [hquiet : Off event.body.tells] :
    Txn.Moves R (record event) := by
  refine .of_write fun s => Aloof.of_aside ⟨rfl, rfl, rfl, rfl, rfl, [event], rfl, fun e he => ?_⟩
  rw [List.mem_singleton.mp he]
  exact hquiet.eq_false

instance aside_recordEither {taskId : Option TaskId} {goalId : Option GoalId} {runId : Option RunId}
    {c : Prop} [Decidable c] {m n : Notice} [Off m.tells] [Off n.tells] :
    Txn.Moves R (record ⟨taskId, goalId, runId, .notice (if c then m else n)⟩) := by
  split
  · infer_instance
  · infer_instance

variable [IsPreorder Store R]

/-! ### Dependencies and goals -/

section Goals

variable {taskId predecessorId : TaskId} {goalId : GoalId}

instance aside_insertDependency : Txn.Moves R (insertDependency taskId predecessorId) := by
  unfold insertDependency
  infer_instance

instance aside_insertGoalDependency : Txn.Moves R (insertGoalDependency taskId goalId) := by
  unfold insertGoalDependency
  infer_instance

instance aside_addNote {target : NoteTarget} : Txn.Moves R (addNote target) := by
  cases target <;> infer_instance

variable [GoalBlind R]

instance aside_writeGoals {goals : Store → Table GoalId GoalRow} :
    Txn.Moves R (Txn.write fun s => { s with goals := goals s } : Tx Unit) :=
  .of_write fun _ => GoalBlind.of_goals

instance aside_saveGoal {goal : Goal} : Txn.Moves R (saveGoal goalId goal) := by
  unfold saveGoal
  infer_instance

instance aside_addGoal {new : NewGoal} : Txn.Moves R (addGoal new) := by
  unfold addGoal
  infer_instance

instance aside_editGoal {edit : GoalEdit} : Txn.Moves R (editGoal goalId edit) := by
  unfold editGoal
  infer_instance

instance aside_closeGoal {verdict : GoalVerdict} : Txn.Moves R (closeGoal goalId verdict) := by
  unfold closeGoal
  infer_instance

instance aside_readyGoal : Txn.Moves R (readyGoal goalId) := by
  unfold readyGoal
  infer_instance

end Goals

/-! ### Tasks that keep their status -/

section Tasks

variable [StatusBound R] {taskId : TaskId}

omit [Aloof R] [IsPreorder Store R] in
/-- A task saved over `row` in the status it had. -/
theorem aside_saveTask {s : Store} {row : TaskRow} {task : Task}
    (hrow : s.tasks.get? taskId = some row) (hstatus : task.status = row.task.status) :
    R s { s with tasks := s.tasks.modify taskId fun row => { row with task := task } } := by
  refine StatusBound.of_modify fun old hold => ⟨?_, rfl⟩
  rw [hrow] at hold
  cases hold
  exact hstatus

instance aside_depth {depth : TaskRow → Nat} :
    Txn.Moves R (Txn.write fun s => { s with
      tasks := s.tasks.modify taskId fun row =>
        TaskRow.mk row.task row.proposalId (depth row) } : Tx Unit) :=
  .of_write fun _ => StatusBound.of_modify fun _ _ => ⟨rfl, rfl⟩

instance aside_setGoal {goalId : Option GoalId} : Txn.Moves R (setGoal taskId goalId) := by
  refine ⟨fun s u s' h => ?_⟩
  simp only [setGoal, saveTask, domain_bind, readTask_bind] at h
  obtain ⟨row, hrow, task, htask, h⟩ := h
  obtain ⟨_, s₁, hcheck, hwrite⟩ := Txn.bind_ok.mp h
  obtain rfl : s₁ = s := Txn.Moves.of_ok (R := fun s s' : Store => s' = s) hcheck
  obtain ⟨_, rfl⟩ := Task.setGoal_ok.mp htask
  simp only [Txn.when_ok, Txn.write_bind] at hwrite
  rcases hwrite with ⟨_, rest⟩ | ⟨_, rfl⟩
  · refine trans_of R ?_ (Txn.Moves.of_ok rest)
    exact aside_saveTask hrow rfl
  · exact refl_of R _

instance aside_reviseTask {command : Task → Except DomainError Task} [hc : KeepsPlace command]
    {notice : Task → Task → Notice}
    [∀ old new, Txn.Moves R (taskNotice taskId (notice old new))] :
    Txn.Moves R (reviseTask taskId command notice) := by
  refine ⟨fun s u s' h => ?_⟩
  simp only [reviseTask, saveTask, domain_bind, readTask_bind, Txn.when_ok, Txn.write_bind] at h
  obtain ⟨row, hrow, task, htask, ⟨_, rest⟩ | ⟨_, rfl⟩⟩ := h
  · refine trans_of R ?_ (Txn.Moves.of_ok rest)
    exact aside_saveTask hrow (hc.of_ok htask).1
  · exact refl_of R s

instance aside_lowerPriority {priority : Priority} :
    Txn.Moves R (lowerPriority taskId priority) := by
  refine ⟨fun s u s' h => ?_⟩
  simp only [lowerPriority, saveTask, domain_bind, readTask_bind, Txn.write_bind] at h
  obtain ⟨row, hrow, task, htask, rest⟩ := h
  obtain rfl := Task.setPriority_ok htask
  refine trans_of R ?_ (Txn.Moves.of_ok rest)
  exact aside_saveTask hrow rfl

end Tasks

/-! ### Runs -/

section Runs

variable {id : RunId} {token : Token} {now : Seconds}

instance aside_saveRun {run : TaskRun} : Txn.Moves R (saveRun id run) := by
  unfold saveRun
  infer_instance

instance aside_apply {token : Option Token} {refusal : String}
    {command : TaskRun → Except DomainError TaskRun} :
    Txn.Moves R (apply id token refusal command) := by
  unfold apply
  infer_instance

instance aside_insertRun {run : TaskRun} : Txn.Moves R (insertRun id run) := by
  unfold insertRun
  infer_instance

instance aside_renewLease : Txn.Moves R (renewLease id token now) := by
  unfold renewLease
  infer_instance

instance aside_insertLease {lease : Lease} : Txn.Moves R (insertLease id lease) := by
  unfold insertLease
  infer_instance

instance aside_dropLease : Txn.Moves R (dropLease id token) := by
  unfold dropLease
  infer_instance

instance aside_deleteLease : Txn.Moves R (deleteLease id) := by
  unfold deleteLease
  infer_instance

instance aside_recoverRun {checkedProcesses : Nat} :
    Txn.Moves R (recoverRun id checkedProcesses now) := by
  unfold recoverRun
  infer_instance

instance aside_finishValidation {validation : Validation} :
    Txn.Moves R (finishValidation id token now validation) := by
  unfold finishValidation
  infer_instance

instance aside_beginIntegration {pid : Pid} {main : CommitSha} :
    Txn.Moves R (beginIntegration id token pid now main) := by
  unfold beginIntegration
  infer_instance

instance aside_abortIntegration {revertTo : RunStatus} {code : ReasonCode} {message : String} :
    Txn.Moves R (abortIntegration id token now revertTo code message) := by
  unfold abortIntegration
  infer_instance

instance aside_resumeTriaged {instruction : String} :
    Txn.Moves R (resumeTriaged id instruction) := by
  unfold resumeTriaged
  infer_instance

end Runs

/-! ### Checks of a plan review -/

instance aside_checkAction {members : List TaskId} {action : PlanReviewAction} :
    Txn.Moves R (checkAction members action) := by
  cases action <;> (unfold checkAction; infer_instance)

instance aside_checkOriginals {actions : List PlanReviewAction} :
    Txn.Moves R (checkOriginals actions) := by
  unfold checkOriginals
  have hround : ∀ action : PlanReviewAction, ∀ canceled : List TaskId, Txn.Moves R
      (match action with
        | .cancelDuplicate _ duplicateOf => Tx.ensure (duplicateOf ∉ canceled)
            s!"task {duplicateOf} is canceled as a duplicate itself; it is no original"
        | _ => pure () : Tx Unit) := by
    intro action canceled
    cases action <;> infer_instance
  exact Txn.Moves.forM _

end Operations

end Dagq
