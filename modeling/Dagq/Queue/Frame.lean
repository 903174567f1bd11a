/-
# Dagq.Queue.Frame -- what most of the operations leave alone.

A transaction on tasks, goals, dependencies or runs touches no lease, no ask and no proposal, and
moves no task into another proposal.  A relation between stores that looks at nothing else is
indifferent to it; for every such relation, instance search walks the operations of this file.
-/
import Dagq.Queue.Op

namespace Dagq

open Lib

/-- The leases, the proposals, the asks and the membership of every task are as they were. -/
structure Framed (s s' : Store) : Prop where
  leases : s'.leases = s.leases
  proposals : s'.proposals = s.proposals
  asks : s'.asks = s.asks
  proposalOf : ∀ t, s'.proposalOf t = s.proposalOf t

/-- A relation that looks at leases, proposals, asks and memberships only. -/
class Indifferent (R : Store → Store → Prop) : Prop where
  of_framed : ∀ {s s'}, Framed s s' → R s s'

instance : IsPreorder Store Framed where
  refl _ := ⟨rfl, rfl, rfl, fun _ => rfl⟩
  trans _ _ _ h₁ h₂ := ⟨h₂.leases.trans h₁.leases, h₂.proposals.trans h₁.proposals,
    h₂.asks.trans h₁.asks, fun t => (h₂.proposalOf t).trans (h₁.proposalOf t)⟩

instance : Indifferent Framed := ⟨fun h => h⟩

/-! ## Memberships -/

namespace Store

variable {s : Store}

theorem proposalOf_modifyTask {id : TaskId} {f : TaskRow → TaskRow} {t : TaskId} :
    ({ s with tasks := s.tasks.modify id f } : Store).proposalOf t
      = if t = id then (s.tasks.get? id).bind fun row => (f row).proposalId
        else s.proposalOf t := by
  simp only [proposalOf, Table.get?_modify]
  split_ifs
  · cases s.tasks.get? id <;> rfl
  · rfl

theorem proposalOf_modifyTask_same {id : TaskId} {f : TaskRow → TaskRow}
    (hf : ∀ row, (f row).proposalId = row.proposalId) (t : TaskId) :
    ({ s with tasks := s.tasks.modify id f } : Store).proposalOf t = s.proposalOf t := by
  rw [proposalOf_modifyTask]
  split_ifs with ht
  · subst ht
    cases hrow : s.tasks.get? t with
    | none => simp [proposalOf, hrow]
    | some row => simp [proposalOf, hrow, hf]
  · rfl

/-- A task just registered is in no proposal. -/
theorem proposalOf_pushTask {id : TaskId} {task : Task} {depth : Nat} (t : TaskId) :
    ({ s with tasks := s.tasks.push id ⟨task, none, depth⟩ } : Store).proposalOf t
      = s.proposalOf t := by
  by_cases hid : s.tasks.get? id = none
  · simp only [proposalOf, Table.get?_push hid]
    split_ifs with ht
    · rw [ht, hid]
      rfl
    · rfl
  · rw [Table.push_of_mem hid]

end Store

/-! ## Writes -/

section Writes

variable {R : Store → Store → Prop} [Indifferent R]

instance frame_write {goals : Store → Table GoalId GoalRow}
    {taskDependencies : Store → List (TaskId × TaskId)}
    {taskGoalDependencies : Store → List (TaskId × GoalId)} {runs : Store → Table RunId RunRow}
    {processes : Store → Table (RunId × ProcessRole) RunProcess}
    {supervisors : Store → Table Token Supervisor}
    {planReviews : Store → Table PlanReviewId PlanReviewRow}
    {draftOrigins : Store → Table TaskId DraftOrigin} {events : Store → List Event} :
    Txn.Moves R (Txn.write fun s => Store.mk (goals s) s.tasks (taskDependencies s)
      (taskGoalDependencies s) (runs s) s.leases (processes s) (supervisors s) s.proposals
      (planReviews s) s.asks (draftOrigins s) (events s) : Tx Unit) :=
  .of_write fun _ => Indifferent.of_framed ⟨rfl, rfl, rfl, fun _ => rfl⟩

/-- The columns of a task next to its proposal. -/
instance frame_taskColumns {id : TaskId} {task : TaskRow → Task} {depth : TaskRow → Nat} :
    Txn.Moves R (Txn.write fun s => { s with
      tasks := s.tasks.modify id fun row =>
        TaskRow.mk (task row) row.proposalId (depth row) } : Tx Unit) :=
  .of_write fun _ => Indifferent.of_framed
    ⟨rfl, rfl, rfl, Store.proposalOf_modifyTask_same fun _ => rfl⟩

instance frame_pushTask {id : TaskId} {task : Task} {depth : Nat} :
    Txn.Moves R (Txn.write fun s => { s with
      tasks := s.tasks.push id ⟨task, none, depth⟩ } : Tx Unit) :=
  .of_write fun _ => Indifferent.of_framed ⟨rfl, rfl, rfl, Store.proposalOf_pushTask⟩

end Writes

/-! ## Operations -/

section Operations

variable {R : Store → Store → Prop} [IsPreorder Store R] [Indifferent R]

set_option synthInstance.maxSize 100000

instance frame_record {event : Event} : Txn.Moves R (record event) := by
  unfold record
  infer_instance

instance frame_saveTask {id : TaskId} {task : Task} :
    Txn.Moves R (saveTask id task) := by
  unfold saveTask
  infer_instance

instance frame_saveGoal {id : GoalId} {goal : Goal} :
    Txn.Moves R (saveGoal id goal) := by
  unfold saveGoal
  infer_instance

instance frame_insertDependency {taskId predecessorId : TaskId} :
    Txn.Moves R (insertDependency taskId predecessorId) := by
  unfold insertDependency
  infer_instance

instance frame_insertGoalDependency {taskId : TaskId} {goalId : GoalId} :
    Txn.Moves R (insertGoalDependency taskId goalId) := by
  unfold insertGoalDependency
  infer_instance

instance frame_insertTaskRow {new : NewTask} :
    Txn.Moves R (insertTaskRow new) := by
  unfold insertTaskRow
  infer_instance

instance frame_applyTransition {taskId : TaskId} {action : TaskAction}
    {duplicateOf : Option TaskId} :
    Txn.Moves R (applyTransition taskId action duplicateOf) := by
  unfold applyTransition
  infer_instance

instance frame_setGoal {taskId : TaskId} {goalId : Option GoalId} :
    Txn.Moves R (setGoal taskId goalId) := by
  unfold setGoal
  infer_instance

instance frame_reviseTask {taskId : TaskId} {command : Task → Except DomainError Task}
    {notice : Task → Task → Notice} :
    Txn.Moves R (reviseTask taskId command notice) := by
  unfold reviseTask
  infer_instance

instance frame_addGoal {new : NewGoal} : Txn.Moves R (addGoal new) := by
  unfold addGoal
  infer_instance

instance frame_editGoal {id : GoalId} {edit : GoalEdit} :
    Txn.Moves R (editGoal id edit) := by
  unfold editGoal
  infer_instance

instance frame_closeGoal {id : GoalId} {verdict : GoalVerdict} :
    Txn.Moves R (closeGoal id verdict) := by
  unfold closeGoal
  infer_instance

instance frame_readyGoal {id : GoalId} : Txn.Moves R (readyGoal id) := by
  unfold readyGoal
  infer_instance

instance frame_lowerPriority {taskId : TaskId} {priority : Priority} :
    Txn.Moves R (lowerPriority taskId priority) := by
  unfold lowerPriority
  infer_instance

instance frame_checkAction {members : List TaskId} {action : PlanReviewAction} :
    Txn.Moves R (checkAction members action) := by
  cases action <;> (unfold checkAction; infer_instance)

instance frame_applyAction {action : PlanReviewAction} :
    Txn.Moves R (applyAction action) := by
  cases action <;> (unfold applyAction; infer_instance)

instance frame_checkOriginals {actions : List PlanReviewAction} :
    Txn.Moves R (checkOriginals actions) := by
  unfold checkOriginals
  have hround : ∀ action : PlanReviewAction, ∀ canceled : List TaskId, Txn.Moves R
      (match action with
        | .cancelDuplicate _ duplicateOf => Tx.ensure (duplicateOf ∉ canceled)
            s!"task {duplicateOf} is canceled as a duplicate itself; it is no original"
        | _ => pure () : Tx Unit) := by
    intro action canceled
    cases action <;> infer_instance
  exact Txn.Moves.forM _

instance frame_saveRun {id : RunId} {run : TaskRun} : Txn.Moves R (saveRun id run) := by
  unfold saveRun
  infer_instance

instance frame_apply {id : RunId} {token : Option Token} {refusal : String}
    {command : TaskRun → Except DomainError TaskRun} :
    Txn.Moves R (apply id token refusal command) := by
  unfold apply
  infer_instance

instance frame_insertRun {id : RunId} {run : TaskRun} :
    Txn.Moves R (insertRun id run) := by
  unfold insertRun
  infer_instance

instance frame_claimTask {runId : RunId} {baseCommit : CommitSha} {order : List TaskId} :
    Txn.Moves R (claimTask runId baseCommit order) := by
  unfold claimTask
  infer_instance

instance frame_resumeTriaged {id : RunId} {instruction : String} :
    Txn.Moves R (resumeTriaged id instruction) := by
  unfold resumeTriaged
  infer_instance

instance frame_triageAnswered {id : RunId} {taskId : TaskId} {ask : Option Ask}
    {answer reason : String} :
    Txn.Moves R (triageAnswered id taskId ask answer reason) := by
  unfold triageAnswered
  infer_instance

end Operations

end Dagq
