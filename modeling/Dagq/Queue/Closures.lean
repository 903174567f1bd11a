/-
# Dagq.Queue.Closures -- a closed goal stays closed, over tasks that are done or at rest.

A goal closed as achieved has only finished members, and since tasks join open goals only, it never has
another kind.  A goal closed as abandoned keeps the tasks nobody started, and the ready query looks at
its verdict no more than at any other: what keeps such a task from being claimed is only that no task of
the goal is ready.
-/
import Dagq.Queue.Invariants
import Dagq.Queue.Aside

namespace Dagq

open Lib

/-! ## Achieved goals -/

/-- The members of a goal closed as achieved are finished. -/
def Board.Achieved (b : Board) : Prop :=
  ∀ g t v, b.goal g = some (some .achieved) → b.task t = some v → v.goalId = some g →
    v.status.isTerminal = true

theorem Board.Achieved.empty : Board.Achieved .empty := by
  intro g t v hg
  cases hg

theorem GoalVerdict.allows_achieved {status : TaskStatus} :
    GoalVerdict.achieved.allows status = status.isTerminal := by
  cases status <;> rfl

theorem Board.Achieved.step {P : Board.Policy} {b b' : Board} (hb : b.Achieved)
    (h : Board.Step P b b') : b'.Achieved := by
  intro g t v hg hv hmember
  have hbefore := hb g t
  cases h <;> simp at hg hv <;>
    grind [TaskStatus.isTerminal, TaskStatus.dependenciesEditable, GoalVerdict.allows_achieved]

namespace Store

/-- Every member of a goal closed as achieved is completed or canceled. -/
def AchievedIsFinished (s : Store) : Prop :=
  ∀ g t row, s.goalVerdict g = some .achieved → s.tasks.get? t = some row →
    row.task.goalId = some g → row.task.status.isTerminal = true

theorem AchievedIsFinished.of_board {s : Store} (h : s.board.Achieved) : s.AchievedIsFinished :=
  fun g t _ hg hrow hmember => h g t _ (goalVerdict_iff.mp hg) (board_task hrow) hmember

/-- What is achieved in `s` is so in `s'`. -/
def KeepsAchieved (s s' : Store) : Prop :=
  ∀ g, s.goalVerdict g = some .achieved → s'.goalVerdict g = some .achieved

end Store

theorem keepsAchieved_runFrom (s : Store) (ops : List Op) :
    s.KeepsAchieved (queue.runFrom s ops) := by
  intro g hg
  rw [Store.goalVerdict_iff] at hg ⊢
  exact board_stays (I := fun b => b.goal g = some (some .achieved))
    (fun _ _ hb hstep => hstep.verdict hb) hg ops

theorem achievedIsFinished (ops : List Op) : (queue.run ops).AchievedIsFinished :=
  .of_board (board_invariant Board.Achieved.empty (fun _ _ hb h => hb.step h) ops)

/-! ## Closed goals at rest -/

/-- Ready or in progress: waiting for a run, or owning one. -/
def TaskStatus.isStarting : TaskStatus → Bool
  | .ready | .inProgress => true
  | _ => false

/-- No member of a closed goal is ready or in progress. -/
def Store.Dormant (s : Store) : Prop :=
  ∀ t row g, s.tasks.get? t = some row → row.task.goalId = some g →
    (s.goalVerdict g).isSome = true → row.task.status.isStarting = false

/-- What was dormant is so still. -/
def KeepsDormant (s s' : Store) : Prop := s.Dormant → s'.Dormant

instance : IsPreorder Store KeepsDormant where
  refl _ h := h
  trans _ _ _ h₁ h₂ h := h₂ (h₁ h)

instance : Aloof KeepsDormant where
  of_aside h hs t row g hrow hmember hclosed := by
    rw [h.tasks] at hrow
    rw [Store.goalVerdict, h.goals] at hclosed
    exact hs t row g hrow hmember hclosed

set_option synthInstance.maxSize 100000

/-! ### Writes -/

instance keepsDormant_write {proposals : Store → Table ProposalId ProposalRow}
    {planReviews : Store → Table PlanReviewId PlanReviewRow} {asks : Store → Table AskId Ask}
    {events : Store → List Event} :
    Txn.Moves KeepsDormant (Txn.write fun s => { s with
      proposals := proposals s, planReviews := planReviews s, asks := asks s
      events := events s } : Tx Unit) :=
  .of_write fun _ h => h

instance keepsDormant_record {event : Event} : Txn.Moves KeepsDormant (record event) :=
  .of_write fun _ h => h

/-- A task rewritten where it is: in its goal, and not about to start unless it was. -/
theorem keepsDormant_modifyTask {s : Store} {id : TaskId} {f : TaskRow → TaskRow}
    (hf : ∀ row, s.tasks.get? id = some row → ∀ g, (f row).task.goalId = some g →
      (s.goalVerdict g).isSome = true → (f row).task.status.isStarting = true →
        row.task.goalId = some g ∧ row.task.status.isStarting = true) :
    KeepsDormant s { s with tasks := s.tasks.modify id f } := by
  intro hs t row g hrow hmember hclosed
  rw [Table.get?_modify] at hrow
  split_ifs at hrow with ht
  · obtain ⟨old, hold, rfl⟩ := Option.map_eq_some_iff.mp hrow
    by_contra hstarting
    obtain ⟨hgoal, hwas⟩ := hf old hold g hmember hclosed (by simpa using hstarting)
    rw [hs id old g hold hgoal hclosed] at hwas
    cases hwas
  · exact hs t row g hrow hmember hclosed

/-- The columns of a task next to the task itself. -/
instance keepsDormant_taskColumns {id : TaskId} {proposalId : TaskRow → Option ProposalId}
    {depth : TaskRow → Nat} :
    Txn.Moves KeepsDormant (Txn.write fun s => { s with
      tasks := s.tasks.modify id fun row =>
        TaskRow.mk row.task (proposalId row) (depth row) } : Tx Unit) :=
  .of_write fun _ => keepsDormant_modifyTask fun _ _ _ hgoal _ hstarting => ⟨hgoal, hstarting⟩

/-- A task saved over `row`. -/
theorem keepsDormant_saveTask {s : Store} {id : TaskId} {row : TaskRow} {task : Task}
    (hrow : s.tasks.get? id = some row)
    (htask : ∀ g, task.goalId = some g → (s.goalVerdict g).isSome = true →
      task.status.isStarting = true →
        row.task.goalId = some g ∧ row.task.status.isStarting = true) :
    KeepsDormant s { s with tasks := s.tasks.modify id fun row => { row with task := task } } := by
  apply keepsDormant_modifyTask
  intro old hold
  rw [hrow] at hold
  cases hold
  exact htask

/-- Goals rewritten whose verdicts stay, but for members that are at rest. -/
theorem keepsDormant_goals {s : Store} {goals : Table GoalId GoalRow}
    (hgoals : ∀ g, (({ s with goals := goals } : Store).goalVerdict g).isSome = true →
      (s.goalVerdict g).isSome = true ∨ ∀ t row, s.tasks.get? t = some row →
        row.task.goalId = some g → row.task.status.isStarting = false) :
    KeepsDormant s { s with goals := goals } := by
  intro hs t row g hrow hmember hclosed
  rcases hgoals g hclosed with hwas | hrest
  · exact hs t row g hrow hmember hwas
  · exact hrest t row hrow hmember

namespace Store

variable {s : Store}

theorem goalVerdict_modify {id g : GoalId} {f : GoalRow → GoalRow} :
    ({ s with goals := s.goals.modify id f } : Store).goalVerdict g
      = if g = id then (s.goals.get? id).bind fun row => (f row).goal.verdict
        else s.goalVerdict g := by
  simp only [goalVerdict, Table.get?_modify]
  split_ifs
  · cases s.goals.get? id <;> rfl
  · rfl

theorem goalVerdict_of_get {g : GoalId} {row : GoalRow} (h : s.goals.get? g = some row) :
    s.goalVerdict g = row.goal.verdict := by
  rw [goalVerdict, h]
  rfl

end Store

/-- A goal saved over `row`, its verdict kept. -/
theorem keepsDormant_saveGoal {s : Store} {id : GoalId} {row : GoalRow} {goal : Goal}
    (hrow : s.goals.get? id = some row) (hverdict : goal.verdict = row.goal.verdict) :
    KeepsDormant s { s with goals := s.goals.modify id fun row => { row with goal := goal } } := by
  refine keepsDormant_goals fun g hclosed => .inl ?_
  rw [Store.goalVerdict_modify] at hclosed
  split_ifs at hclosed with hg
  · rw [hg, Store.goalVerdict_of_get hrow, ← hverdict]
    simpa [hrow] using hclosed
  · exact hclosed

instance keepsDormant_goalColumns {id : GoalId} {proposalId : GoalRow → Option ProposalId} :
    Txn.Moves KeepsDormant (Txn.write fun s => { s with
      goals := s.goals.modify id fun row => GoalRow.mk row.goal (proposalId row) } : Tx Unit) := by
  refine .of_write fun s => keepsDormant_goals fun g hclosed => .inl ?_
  rw [Store.goalVerdict_modify] at hclosed
  split_ifs at hclosed with hg
  · rw [hg]
    exact hclosed
  · exact hclosed

/-! ### Tasks and goals -/

instance keepsDormant_insertTaskRow {new : NewTask} :
    Txn.Moves KeepsDormant (insertTaskRow new) := by
  refine ⟨fun s id s' h => ?_⟩
  simp only [insertTaskRow, Txn.read_bind, domain_bind] at h
  obtain ⟨task, htask, h⟩ := h
  obtain ⟨_, s₁, hgoal, rest⟩ := Txn.bind_ok.mp h
  obtain ⟨hstatus, _⟩ := Task.create_ok htask
  refine trans_of KeepsDormant (Txn.Moves.of_ok hgoal)
    (trans_of KeepsDormant ?_ (Txn.Moves.of_ok (Txn.write_bind.mp rest)))
  intro hs t row g hrow hmember hclosed
  by_cases hfresh : s₁.tasks.get? s.tasks.nextId = none
  · rw [Table.get?_push hfresh] at hrow
    split_ifs at hrow
    · cases hrow
      rw [hstatus]
      rfl
    · exact hs t row g hrow hmember hclosed
  · rw [Table.push_of_mem hfresh] at hrow
    exact hs t row g hrow hmember hclosed

/-- The actions that ready a task which is not in progress. -/
def TaskAction.starts : TaskAction → Bool
  | .approve | .bypassReview => true
  | _ => false

theorem TaskStatus.transition_starts {status status' : TaskStatus} {action : TaskAction}
    {unfinishedRun : Bool} (h : status.transition action unfinishedRun = .ok status')
    (hstarting : status'.isStarting = true) :
    status.isStarting = true ∨ action.starts = true := by
  revert h hstarting
  cases status <;> cases action <;> cases unfinishedRun <;> intro h <;> cases h <;>
    simp [isStarting, TaskAction.starts]

/-- A transition that readies nobody, or somebody outside a closed goal. -/
theorem keepsDormant_transition {taskId : TaskId} {action : TaskAction}
    {duplicateOf : Option TaskId} {task : Task} {s s' : Store}
    (haction : action.starts = true → s.closedGoal taskId = none)
    (h : applyTransition taskId action duplicateOf s = .ok (task, s')) : KeepsDormant s s' := by
  simp only [applyTransition, saveTask, Txn.read_bind, domain_bind, readTask_bind,
    Txn.write_bind] at h
  obtain ⟨row, hrow, task', htask, rest⟩ := h
  obtain ⟨status, hstatus, rfl⟩ := Task.transition_ok.mp htask
  refine trans_of KeepsDormant ?_ (Txn.Moves.of_ok rest)
  refine keepsDormant_saveTask hrow fun g hgoal hclosed hstarting => ⟨hgoal, ?_⟩
  rcases TaskStatus.transition_starts hstatus hstarting with hwas | hstarts
  · exact hwas
  · -- The task's goal is closed, so the action readies nobody.
    have hnone := haction hstarts
    obtain ⟨goal, hget⟩ : ∃ goal, s.goals.get? g = some goal := by
      cases hget : s.goals.get? g with
      | none => simp [Store.goalVerdict, hget] at hclosed
      | some goal => exact ⟨goal, rfl⟩
    rw [Store.goalVerdict_of_get hget] at hclosed
    have hgoal' : row.task.goalId = some g := hgoal
    simp [Store.closedGoal, hrow, hgoal', hget, Goal.isClosed, hclosed] at hnone

theorem keepsDormant_applyTransition {taskId : TaskId} {action : TaskAction}
    {duplicateOf : Option TaskId} (haction : action.starts = false) :
    Txn.Moves KeepsDormant (applyTransition taskId action duplicateOf) :=
  ⟨fun _ _ _ => keepsDormant_transition (by simp [haction])⟩

instance keepsDormant_cancel {taskId : TaskId} {duplicateOf : Option TaskId} :
    Txn.Moves KeepsDormant (applyTransition taskId .cancel duplicateOf) :=
  keepsDormant_applyTransition rfl

instance keepsDormant_draft {taskId : TaskId} :
    Txn.Moves KeepsDormant (applyTransition taskId .draft none) :=
  keepsDormant_applyTransition rfl

instance keepsDormant_ready {taskId : TaskId} :
    Txn.Moves KeepsDormant (applyTransition taskId .ready none) :=
  keepsDormant_applyTransition rfl

instance keepsDormant_submit {taskId : TaskId} :
    Txn.Moves KeepsDormant (applyTransition taskId .submit none) :=
  keepsDormant_applyTransition rfl

instance keepsDormant_reopened {taskId : TaskId} :
    Txn.Moves KeepsDormant (applyTransition taskId .reopen none) :=
  keepsDormant_applyTransition rfl

/-- An approval looks at the goal first. -/
instance keepsDormant_approveTask {id : ProposalId} {taskId : TaskId} :
    Txn.Moves KeepsDormant (approveTask id taskId) := by
  refine ⟨fun s u s' h => ?_⟩
  rw [approveTask, readTask_bind] at h
  obtain ⟨row, _, h⟩ := h
  rcases Txn.when_ok.mp h with ⟨_, h⟩ | ⟨_, rfl⟩
  · rw [Txn.read_bind] at h
    rcases Txn.option_ok.mp h with ⟨hopen, h⟩ | ⟨goalId, _, h⟩
    · obtain ⟨_, s₁, happrove, hpure⟩ := Txn.bind_ok.mp h
      obtain ⟨_, rfl⟩ := Txn.pure_ok.mp hpure
      exact keepsDormant_transition (fun _ => hopen) happrove
    · exact Txn.Moves.of_ok h
  · exact refl_of KeepsDormant s

/-- A task joins open goals only. -/
instance keepsDormant_setGoal {taskId : TaskId} {goalId : Option GoalId} :
    Txn.Moves KeepsDormant (setGoal taskId goalId) := by
  refine ⟨fun s u s' h => ?_⟩
  simp only [setGoal, saveTask, domain_bind, readTask_bind] at h
  obtain ⟨row, hrow, task, htask, h⟩ := h
  obtain ⟨_, s₁, hcheck, hwrite⟩ := Txn.bind_ok.mp h
  obtain ⟨_, rfl⟩ := Task.setGoal_ok.mp htask
  obtain ⟨rfl, hopen⟩ := setGoal_check hcheck
  simp only [Txn.when_ok, Txn.write_bind] at hwrite
  rcases hwrite with ⟨hne, rest⟩ | ⟨_, rfl⟩
  · refine trans_of KeepsDormant ?_ (Txn.Moves.of_ok rest)
    refine keepsDormant_saveTask hrow fun g hgoal hclosed _ => ?_
    obtain ⟨verdict, hverdict⟩ := Option.isSome_iff_exists.mp hclosed
    rw [Store.goalVerdict_iff, (hopen hne g hgoal).1] at hverdict
    cases hverdict
  · exact refl_of KeepsDormant _

instance keepsDormant_reviseTask {taskId : TaskId} {command : Task → Except DomainError Task}
    [hc : KeepsPlace command] {notice : Task → Task → Notice} :
    Txn.Moves KeepsDormant (reviseTask taskId command notice) := by
  refine ⟨fun s u s' h => ?_⟩
  simp only [reviseTask, saveTask, domain_bind, readTask_bind, Txn.when_ok, Txn.write_bind] at h
  obtain ⟨row, hrow, task, htask, ⟨_, rest⟩ | ⟨_, rfl⟩⟩ := h
  · refine trans_of KeepsDormant ?_ (Txn.Moves.of_ok rest)
    refine keepsDormant_saveTask hrow fun g hgoal _ hstarting => ?_
    rw [← (hc.of_ok htask).1, ← (hc.of_ok htask).2]
    exact ⟨hgoal, hstarting⟩
  · exact refl_of KeepsDormant s

instance keepsDormant_lowerPriority {taskId : TaskId} {priority : Priority} :
    Txn.Moves KeepsDormant (lowerPriority taskId priority) := by
  refine ⟨fun s u s' h => ?_⟩
  simp only [lowerPriority, saveTask, domain_bind, readTask_bind, Txn.write_bind] at h
  obtain ⟨row, hrow, task, htask, rest⟩ := h
  obtain rfl := Task.setPriority_ok htask
  refine trans_of KeepsDormant ?_ (Txn.Moves.of_ok rest)
  exact keepsDormant_saveTask hrow fun _ hgoal _ hstarting => ⟨hgoal, hstarting⟩

instance keepsDormant_addGoal {new : NewGoal} : Txn.Moves KeepsDormant (addGoal new) := by
  refine ⟨fun s id s' h => ?_⟩
  simp only [addGoal, Txn.read_bind, domain_bind, Txn.write_bind] at h
  obtain ⟨goal, hgoal, rest⟩ := h
  refine trans_of KeepsDormant ?_ (Txn.Moves.of_ok rest)
  refine keepsDormant_goals fun g hclosed => .inl ?_
  simp only [Store.goalVerdict, Table.get?_push (Table.nextId_fresh s.goals)] at hclosed ⊢
  split_ifs at hclosed
  · -- A new goal is open.
    simp [Goal.create_ok hgoal] at hclosed
  · exact hclosed

instance keepsDormant_editGoal {id : GoalId} {edit : GoalEdit} :
    Txn.Moves KeepsDormant (editGoal id edit) := by
  refine ⟨fun s u s' h => ?_⟩
  simp only [editGoal, saveGoal, domain_bind, readGoal_bind, Txn.ensure_bind, Txn.write_bind] at h
  obtain ⟨_, row, hrow, goal, hgoal, rest⟩ := h
  exact trans_of KeepsDormant (keepsDormant_saveGoal hrow (Goal.edit_ok hgoal).2)
    (Txn.Moves.of_ok rest)

instance keepsDormant_readyGoal {id : GoalId} : Txn.Moves KeepsDormant (readyGoal id) := by
  refine ⟨fun s u s' h => ?_⟩
  simp only [readyGoal, saveGoal, domain_bind, readGoal_bind, Txn.write_bind] at h
  obtain ⟨row, hrow, goal, hgoal, rest⟩ := h
  have hverdict : goal.verdict = row.goal.verdict := by rw [← (Goal.ready_ok hgoal).2]
  exact trans_of KeepsDormant (keepsDormant_saveGoal hrow hverdict) (Txn.Moves.of_ok rest)

/-- A goal is closed over tasks at rest, unless it is abandoned with a ready one. -/
theorem keepsDormant_closeGoal {id : GoalId} {verdict : GoalVerdict} {u : Unit} {s s' : Store}
    (hready : verdict = .abandoned → ∀ t row, s.tasks.get? t = some row →
      row.task.goalId = some id → row.task.status ≠ .ready)
    (h : closeGoal id verdict s = .ok (u, s')) : KeepsDormant s s' := by
  simp only [closeGoal, saveGoal, domain_bind, readGoal_bind, Txn.read_bind, Txn.write_bind] at h
  obtain ⟨row, hrow, goal, hgoal, rest⟩ := h
  obtain ⟨_, hblocking, rfl⟩ := Goal.close_ok hgoal
  refine trans_of KeepsDormant ?_ (Txn.Moves.of_ok rest)
  refine keepsDormant_goals fun g hclosed => ?_
  rw [Store.goalVerdict_modify] at hclosed
  split_ifs at hclosed with hg
  · subst hg
    refine .inr fun t trow htrow hmember => ?_
    have hallows : verdict.allows trow.task.status = true := by
      apply Goal.count_eq_zero_of_blocking_nil hblocking
      exact List.mem_map.mpr ⟨(t, trow), Table.mem_select.mpr ⟨htrow, by simpa using hmember⟩, rfl⟩
    cases verdict with
    | achieved =>
        rw [GoalVerdict.allows_achieved] at hallows
        revert hallows
        cases trow.task.status <;> simp [TaskStatus.isTerminal, TaskStatus.isStarting]
    | abandoned =>
        have hnot := hready rfl t trow htrow hmember
        revert hallows hnot
        cases trow.task.status <;> simp [GoalVerdict.allows, TaskStatus.isStarting]
  · exact .inl hclosed

/-! ### Runs -/

instance keepsDormant_claimTask {runId : RunId} {baseCommit : CommitSha} {order : List TaskId} :
    Txn.Moves KeepsDormant (claimTask runId baseCommit order) := by
  refine ⟨fun s taskId s' h => ?_⟩
  simp only [claimTask, saveTask, Txn.read_bind, Txn.found_bind, domain_bind, readTask_bind,
    Txn.write_bind] at h
  obtain ⟨t, _, row, hrow, task, htask, run, _, rest⟩ := h
  obtain ⟨hready, rfl⟩ := Task.claim_ok.mp htask
  refine trans_of KeepsDormant ?_ (Txn.Moves.of_ok rest)
  exact keepsDormant_saveTask hrow fun _ hgoal _ _ => ⟨hgoal, by rw [hready]; rfl⟩

instance keepsDormant_finishIntegration {id : RunId} {token : Token} {now : Seconds}
    {commit mainBefore : CommitSha} :
    Txn.Moves KeepsDormant (finishIntegration id token now commit mainBefore) := by
  refine ⟨fun s u s' h => ?_⟩
  obtain ⟨_, s₁, hrenew, h⟩ := Txn.bind_ok.mp h
  obtain ⟨run, s₂, happly, h⟩ := Txn.bind_ok.mp h
  obtain ⟨_, s₃, hdrop, h⟩ := Txn.bind_ok.mp h
  simp only [readTask_bind, Txn.ensure_bind, saveTask, Txn.write_bind] at h
  obtain ⟨row, hrow, _, rest⟩ := h
  refine trans_of KeepsDormant (Txn.Moves.of_ok hrenew) (trans_of KeepsDormant
    (Txn.Moves.of_ok happly) (trans_of KeepsDormant (Txn.Moves.of_ok hdrop)
      (trans_of KeepsDormant ?_ (Txn.Moves.of_ok rest))))
  exact keepsDormant_saveTask hrow fun _ _ _ hstarting => by cases hstarting

instance keepsDormant_triageAnswered {id : RunId} {taskId : TaskId} {ask : Option Ask}
    {answer reason : String} :
    Txn.Moves KeepsDormant (triageAnswered id taskId ask answer reason) := by
  unfold triageAnswered
  infer_instance

instance keepsDormant_finishTriage {id : RunId} {token : Token} {now : Seconds}
    {action : TriageAction} {also : List RuntimeEvent} :
    Txn.Moves KeepsDormant (finishTriage id token now action also) := by
  unfold finishTriage
  infer_instance

instance keepsDormant_decideTriage {id : RunId} {askId : AskId} {answer reason : String}
    {alive : Pid → Bool} {now : Seconds} :
    Txn.Moves KeepsDormant (decideTriage id askId answer reason alive now) := by
  unfold decideTriage
  infer_instance

theorem keepsDormant_runOp (op : RunOp) : Txn.Moves KeepsDormant op.exec := by
  cases op <;> unfold RunOp.exec <;> infer_instance

theorem keepsDormant_askOp (op : AskOp) : Txn.Moves KeepsDormant op.exec := by
  cases op <;> unfold AskOp.exec <;> infer_instance

/-! ### Proposals -/

instance keepsDormant_applyAction {action : PlanReviewAction} :
    Txn.Moves KeepsDormant (applyAction action) := by
  cases action <;> (unfold applyAction; infer_instance)

instance keepsDormant_applyDecision {job : PlanReviewJob} {apply : PlanReviewApply}
    {now : Seconds} : Txn.Moves KeepsDormant (applyDecision job apply now) := by
  unfold applyDecision
  split <;> infer_instance

instance keepsDormant_applyAnswer {id : ProposalId} {now : Seconds} {answer : PlanAnswer} :
    Txn.Moves KeepsDormant (applyAnswer id now answer) := by
  cases answer <;> infer_instance

instance keepsDormant_submitMembers {submission : Submission} {existing : Option Proposal}
    {now : Seconds} : Txn.Moves KeepsDormant (submitMembers submission existing now) := by
  unfold submitMembers
  infer_instance

theorem keepsDormant_planOp (op : PlanOp) : Txn.Moves KeepsDormant op.exec := by
  cases op <;> unfold PlanOp.exec <;> infer_instance

/-! ## Every operation -/

/-- The step abandons no goal that has a ready task, and readies no task of a closed goal past plan
review. -/
def Op.leavesClosedAtRest (s : Store) : Op → Bool
  | .task (.closeGoal goalId .abandoned) =>
      (s.tasksOfGoal goalId).all fun r => r.2.task.status != .ready
  | .task (.transition taskId .bypassReview) => (s.closedGoal taskId).isNone
  | _ => true

theorem keepsDormant_taskOp {s : Store} (op : TaskOp)
    (hop : (Op.task op).leavesClosedAtRest s = true) : KeepsDormant s (op.exec.commit s) := by
  cases op with
  | transition taskId action =>
      rcases Txn.commit_cases (TaskOp.transition taskId action).exec s with ⟨u, h⟩ | h
      · obtain ⟨task, s₁, htransition, hpure⟩ := Txn.bind_ok.mp h
        refine trans_of KeepsDormant (keepsDormant_transition (fun hstarts => ?_) htransition)
          (Txn.Moves.of_ok hpure)
        cases action with
        | bypassReview => simpa [Op.leavesClosedAtRest] using hop
        | ready => cases hstarts
        | draft => cases hstarts
        | cancel => cases hstarts
      · rw [h]
        exact refl_of KeepsDormant s
  | closeGoal goalId verdict =>
      rcases Txn.commit_cases (TaskOp.closeGoal goalId verdict).exec s with ⟨u, h⟩ | h
      · refine keepsDormant_closeGoal (fun habandoned t row hrow hmember => ?_) h
        subst habandoned
        simp only [Op.leavesClosedAtRest, List.all_eq_true, bne_iff_ne] at hop
        exact hop (t, row) (Table.mem_select.mpr ⟨hrow, by simpa using hmember⟩)
      · rw [h]
        exact refl_of KeepsDormant s
  | _ =>
      refine Txn.Moves.commit ?_ s
      unfold TaskOp.exec
      infer_instance

theorem queue_keepsDormant {s : Store} {op : Op} (hop : op.leavesClosedAtRest s = true) :
    KeepsDormant s (queue.next s op) := by
  cases op with
  | task op => exact keepsDormant_taskOp op hop
  | run op => exact (keepsDormant_runOp op).commit s
  | ask op => exact (keepsDormant_askOp op).commit s
  | plan op => exact (keepsDormant_planOp op).commit s

/-- The operation claims no member of a closed goal. -/
def Op.ClaimsInOpenGoal (s : Store) (op : Op) : Prop :=
  ∀ t row g, op.claims s = some t → s.tasks.get? t = some row → row.task.goalId = some g →
    s.goalVerdict g = none

/-- A claimed task is ready, so its goal is not a closed one at rest. -/
theorem Store.Dormant.claimsInOpenGoal {s : Store} (hs : s.Dormant) (op : Op) :
    op.ClaimsInOpenGoal s := by
  intro t row g hclaims hrow hmember
  obtain ⟨row', hrow', hcandidate⟩ := Op.claims_isCandidate hclaims
  rw [hrow] at hrow'
  cases hrow'
  have hready := (Store.isCandidate_iff hcandidate).1
  by_contra hclosed
  have hrest := hs t row g hrow hmember (Option.isSome_iff_ne_none.mpr hclosed)
  rw [hready] at hrest
  cases hrest

/-- A goal closed as achieved has only finished members, after any further operations too.  When goals
are abandoned without ready tasks, and none of their tasks is readied past plan review, no task of a
closed goal is claimed. -/
theorem closed_goals_claim_nothing (ops : List Op)
    (h : queue.Meets (fun s op => op.leavesClosedAtRest s = true) queue.init ops) :
    (∀ more, (queue.run (ops ++ more)).AchievedIsFinished ∧
      (queue.run ops).KeepsAchieved (queue.run (ops ++ more))) ∧
    ∀ pre op post, ops = pre ++ op :: post → op.ClaimsInOpenGoal (queue.run pre) := by
  refine ⟨fun more => ⟨achievedIsFinished _, ?_⟩, ?_⟩
  · rw [Machine.run_append]
    exact keepsAchieved_runFrom _ more
  · rintro pre op post rfl
    have hpre := ((queue.meets_append).mp h).1
    have hinit : queue.init.Dormant := fun t row g hrow => by cases hrow
    exact (Machine.invariant_of_meets (fun _ _ hop hs => queue_keepsDormant hop hs) hpre
      hinit).claimsInOpenGoal op

/-- A goal with one ready task. -/
def readyInGoal : List Op :=
  [.task (.addGoal { title := "search" }), .task (.add { title := "index", goalId := some 1 }),
    .task (.transition 1 .bypassReview)]

def claimNext : Op := .run (.claimNext 1 7 [])

/-- Next to it another goal, abandoned once its task is a draft again. -/
def abandonedAtRest : List Op :=
  readyInGoal ++ [.task (.addGoal { title := "sync" }),
    .task (.add { title := "pull", goalId := some 2 }), .task (.transition 2 .bypassReview),
    .task (.transition 2 .draft), .task (.closeGoal 2 .abandoned)]

theorem closed_goals_claim_nothing_open :
    claimNext.claims (queue.run abandonedAtRest) = some 1 ∧
      claimNext.ClaimsInOpenGoal (queue.run abandonedAtRest) :=
  ⟨by decide +kernel, (closed_goals_claim_nothing (abandonedAtRest ++ [claimNext])
    (by decide +kernel)).2 abandonedAtRest claimNext [] rfl⟩

/-- The goal is abandoned with its ready task, and the task claimed. -/
theorem task_of_abandoned_goal_claimed :
    ¬claimNext.ClaimsInOpenGoal
      (queue.run (readyInGoal ++ [.task (.closeGoal 1 .abandoned)])) := by
  intro h
  generalize hs : queue.run (readyInGoal ++ [.task (.closeGoal 1 .abandoned)]) = s at h
  have hclaims : claimNext.claims s = some 1 := by
    subst hs
    decide +kernel
  have hmember : ((s.tasks.get? 1).bind fun row => row.task.goalId) = some 1 := by
    subst hs
    decide +kernel
  have hclosed : s.goalVerdict 1 = some .abandoned := by
    subst hs
    decide +kernel
  obtain ⟨row, hrow, hgoal⟩ := Option.bind_eq_some_iff.mp hmember
  rw [h 1 row 1 hclaims hrow hgoal] at hclosed
  cases hclosed

end Dagq
