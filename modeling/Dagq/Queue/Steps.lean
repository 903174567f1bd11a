/-
# Dagq.Queue.Steps -- every operation of the queue is a sequence of steps of the board.

The operations whose guards matter come one by one: each is shown to be the step it stands for, its
checks being that step's premises.  The others are put together from these and from writes the board
does not show, and instance search finds how.
-/
import Dagq.Queue.Refine

namespace Dagq

open Lib Relation

variable {P : Board.Policy}

set_option synthInstance.maxSize 100000

/-! ## Run commands -/

theorem saveRun_ok {id : RunId} {run : TaskRun} {u : Unit} {s s' : Store} :
    saveRun id run s = .ok (u, s') ↔ s.runIsUnique id run = true ∧
      { s with runs := s.runs.modify id fun row => { row with run := run } } = s' := by
  simp [saveRun]

/-- What `apply` found and left: the run, the command's result, the unique indexes satisfied. -/
theorem apply_ok {id : RunId} {token : Option Token} {refusal : String}
    {command : TaskRun → Except DomainError TaskRun} {run : TaskRun} {s s' : Store} :
    apply id token refusal command s = .ok (run, s') ↔ ∃ row, s.runs.get? id = some row ∧
      command row.run = .ok run ∧ token.all (row.supervisorToken = some ·) = true ∧
      s.runIsUnique id run = true ∧
      { s with runs := s.runs.modify id fun row => { row with run := run } } = s' := by
  simp only [apply, readRun_bind, Txn.lift_bind, Txn.ensure_bind, mapError_ok]
  simp only [Txn.bind_ok, saveRun_ok, Txn.pure_ok]
  constructor
  · rintro ⟨row, hrow, _, hrun, htoken, _, _, ⟨hunique, rfl⟩, rfl, rfl⟩
    exact ⟨row, hrow, hrun, htoken, hunique, rfl⟩
  · rintro ⟨row, hrow, hrun, htoken, hunique, rfl⟩
    exact ⟨row, hrow, run, hrun, htoken, (), _, ⟨hunique, rfl⟩, rfl, rfl⟩

/-- The run is kept at work, or ends without a landing. -/
structure Worked (run run' : TaskRun) : Prop where
  taskId_eq : run'.taskId = run.taskId
  resultCommit_eq : run'.resultCommit = run.resultCommit
  status : run'.status = run.status ∨
    (run.status.unfinished = true ∧ Board.isWorkTarget run'.status = true)

theorem Worked.of_movesTo {run run' : TaskRun} {source : RunStatus → Prop} {status : RunStatus}
    (h : TaskRun.MovesTo run run' source status run.resultCommit)
    (hs : source run.status → status = run.status ∨
      (run.status.unfinished = true ∧ Board.isWorkTarget status = true)) :
    Worked run run' := by
  refine ⟨h.taskId_eq, h.resultCommit_eq, ?_⟩
  rw [h.status_eq]
  exact hs h.source_ok

theorem Store.board_saveRun {s : Store} {id : RunId} {row : RunRow} {run : TaskRun}
    (h : s.runs.get? id = some row) (htask : run.taskId = row.run.taskId) :
    ({ s with runs := s.runs.modify id fun row => { row with run := run } } : Store).board
      = s.board.setRun id (({ row with run := run } : RunRow).view (s.runEventsOf id)) :=
  board_modifyRun h htask

theorem along_worked {s : Store} {id : RunId} {row : RunRow} {run : TaskRun}
    (hrow : s.runs.get? id = some row) (hw : Worked row.run run) :
    Along P s { s with runs := s.runs.modify id fun row => { row with run := run } } := by
  rcases hw.status with hsame | ⟨hsource, htarget⟩
  · apply Along.of_eq
    apply Store.board_modifyRun_same
    intro row' hrow' events
    rw [hrow] at hrow'
    cases hrow'
    simp only [RunRow.view, hw.taskId_eq, hsame, hw.resultCommit_eq]
  · apply Along.of_step
    rw [Store.board_saveRun hrow hw.taskId_eq]
    have hview : ({ row with run := run } : RunRow).view (s.runEventsOf id)
        = { row.view (s.runEventsOf id) with status := run.status } := by
      simp only [RunRow.view, hw.taskId_eq, hw.resultCommit_eq]
    rw [hview]
    exact .work id _ _ (Store.board_run hrow) hsource htarget

/-- A command that keeps a run at work, or ends it without a landing. -/
class Works (command : TaskRun → Except DomainError TaskRun) : Prop where
  of_ok : ∀ ⦃run run'⦄, command run = .ok run' → Worked run run'

instance along_apply {id : RunId} {token : Option Token} {refusal : String}
    {command : TaskRun → Except DomainError TaskRun} [hw : Works command] :
    Txn.Moves (Along P) (apply id token refusal command) := by
  refine ⟨fun s run s' h => ?_⟩
  obtain ⟨row, hrow, hrun, _, _, rfl⟩ := apply_ok.mp h
  exact along_worked hrow (hw.of_ok hrun)

section Commands

variable {message : String}

instance {plan : RunPlan} : Works (·.startProvisioning plan) :=
  ⟨fun _ _ h => .of_movesTo (TaskRun.startProvisioning_ok h)
    fun hs => .inr (by rw [hs]; decide)⟩

instance {workspaceId : String} : Works (·.attachWorkspace workspaceId) :=
  ⟨fun _ _ h => .of_movesTo (TaskRun.attachWorkspace_ok h) fun _ => .inl rfl⟩

instance : Works TaskRun.markRunning :=
  ⟨fun _ _ h => .of_movesTo (TaskRun.markRunning_ok h) fun hs => .inr (by rw [hs]; decide)⟩

instance {exitCode : Option Int} : Works (·.finishSession exitCode) := by
  refine ⟨fun _ _ h => ?_⟩
  rcases TaskRun.finishSession_ok h with h | h
  · exact .of_movesTo h fun hs => .inr (by rcases hs with hs | hs <;> rw [hs] <;> decide)
  · exact .of_movesTo h fun hs => .inr (by rcases hs with hs | hs <;> rw [hs] <;> decide)

instance : Works TaskRun.restartValidation :=
  ⟨fun _ _ h => .of_movesTo (TaskRun.restartValidation_ok h)
    fun hs => .inr (by rw [hs]; decide)⟩

instance {status : RunStatus} : Works (·.decideLanding status message) := by
  refine ⟨fun _ _ h => ?_⟩
  obtain ⟨hto, h⟩ := TaskRun.decideLanding_ok h
  exact .of_movesTo h fun hs => .inr (by rcases hto with rfl | rfl <;> rw [hs] <;> decide)

instance : Works (·.parkAfterRecheck message) :=
  ⟨fun _ _ h => .of_movesTo (TaskRun.parkAfterRecheck_ok h)
    fun hs => .inr (by rw [hs]; decide)⟩

instance : Works (·.abandon message) :=
  ⟨fun _ _ h => .of_movesTo (TaskRun.abandon_ok h) fun _ => .inl rfl⟩

instance : Works (·.deferIntegration message) :=
  ⟨fun _ _ h => .of_movesTo (TaskRun.leaveIntegration_ok h)
    fun hs => .inr (by rw [hs]; decide)⟩

instance : Works (·.failIntegration message) :=
  ⟨fun _ _ h => .of_movesTo (TaskRun.leaveIntegration_ok h)
    fun hs => .inr (by rw [hs]; decide)⟩

instance : Works (·.recordCleanupFailure message) :=
  ⟨fun _ _ h => .of_movesTo (TaskRun.recordCleanupFailure_ok h) fun _ => .inl rfl⟩

instance {approved : Bool} : Works (·.skipResume approved) := by
  refine ⟨fun _ _ h => .of_movesTo (TaskRun.skipResume_ok h) fun hs => ?_⟩
  cases approved
  · exact .inr (by rw [hs]; decide)
  · exact .inl hs.symm

instance {ended : ResumeEnd} {reason : Option String} :
    Works (·.finishResume ended.status reason) := by
  refine ⟨fun _ _ h => .of_movesTo (TaskRun.finishResume_ok h).2 fun hs => .inr ?_⟩
  rw [hs]
  cases ended <;> decide

instance : Works (·.exhaustResumes message) :=
  ⟨fun _ _ h => .of_movesTo (TaskRun.exhaustResumes_ok h) fun hs => .inr (by rw [hs]; decide)⟩

instance {closedAt : Seconds} : Works (·.workspaceClosed closedAt) :=
  ⟨fun _ _ h => .of_movesTo (TaskRun.workspaceClosed_ok h) fun _ => .inl rfl⟩

instance : Works (·.recordCloseFailure message) :=
  ⟨fun _ _ h => .of_movesTo (TaskRun.recordCloseFailure_ok h) fun _ => .inl rfl⟩

instance {workspaceId : String} {closedAt : Seconds} :
    Works (·.recordClosedWorkspace workspaceId closedAt) :=
  ⟨fun _ _ h => .of_movesTo (TaskRun.recordClosedWorkspace_ok h) fun _ => .inl rfl⟩

end Commands

/-! ## Tasks and goals -/

instance along_insertTaskRow {new : NewTask} : Txn.Moves (Along P) (insertTaskRow new) := by
  refine ⟨fun s id s' h => ?_⟩
  simp only [insertTaskRow, Txn.read_bind, domain_bind] at h
  obtain ⟨task, htask, h⟩ := h
  obtain ⟨_, s₁, hgoal, rest⟩ := Txn.bind_ok.mp h
  obtain ⟨hstatus, _⟩ := Task.create_ok htask
  have hopen : s₁ = s ∧ ∀ g, task.goalId = some g → s.board.goal g = some none := by
    rcases Txn.option_ok.mp hgoal with ⟨hnone, hpure⟩ | ⟨g, hsome, hread⟩
    · rw [Txn.pure_ok] at hpure
      refine ⟨hpure.2.symm, fun g hg => ?_⟩
      rw [hnone] at hg
      cases hg
    · simp only [readGoal_bind, domain_ok, Goal.checkAcceptsTasks_ok] at hread
      obtain ⟨row, hrow, hclosed, rfl⟩ := hread
      refine ⟨rfl, fun g' hg' => ?_⟩
      rw [hsome] at hg'
      cases hg'
      rw [Store.board_goal hrow]
      simpa [Goal.isClosed] using hclosed
  obtain ⟨rfl, hopen⟩ := hopen
  refine trans_of (Along P) (Along.of_step ?_) (Txn.Moves.of_ok (Txn.write_bind.mp rest))
  rw [Store.board_pushTask (Table.nextId_fresh _)]
  have hview : (TaskRow.view { task := task }) = ⟨.draft, task.goalId⟩ := by
    simp only [TaskRow.view, hstatus]
  rw [hview]
  refine .addTask _ _ ?_ hopen
  simp [Store.board, Table.nextId_fresh]

instance along_insertDependency {taskId predecessorId : TaskId} :
    Txn.Moves (Along P) (insertDependency taskId predecessorId) := by
  refine ⟨fun s u s' h => ?_⟩
  simp only [insertDependency, Txn.read_bind, domain_bind, readTask_bind, Txn.when_ok,
    Txn.write_bind, Task.checkDependenciesEditable_ok, Task.checkAcyclic_ok] at h
  obtain ⟨_, _, row, hrow, _, heditable, other, hother, _, hcycle, hwrite⟩ := h
  rcases hwrite with ⟨_, rest⟩ | ⟨_, rfl⟩
  · refine trans_of (Along P) (Along.of_step ?_) (Txn.Moves.of_ok rest)
    rw [Store.board_addDependency]
    exact .need taskId predecessorId _ _ (Store.board_task hrow) (Store.board_task hother)
      heditable (Store.waitsFor_eq_false.mp hcycle)
  · exact refl_of (Along P) s

instance along_insertGoalDependency {taskId : TaskId} {goalId : GoalId} :
    Txn.Moves (Along P) (insertGoalDependency taskId goalId) := by
  refine ⟨fun s u s' h => ?_⟩
  simp only [insertGoalDependency, Txn.read_bind, domain_bind, readTask_bind, readGoal_bind,
    Txn.when_ok, Txn.write_bind, Task.checkDependenciesEditable_ok,
    Task.checkGoalAcyclic_ok] at h
  obtain ⟨row, hrow, _, heditable, goal, hgoal, _, _, _, hcycle, hwrite⟩ := h
  rcases hwrite with ⟨_, rest⟩ | ⟨_, rfl⟩
  · refine trans_of (Along P) (Along.of_step ?_) (Txn.Moves.of_ok rest)
    rw [Store.board_addGoalDependency]
    exact .needGoal taskId goalId _ _ (Store.board_task hrow) (Store.board_goal hgoal) heditable
      (Store.waitsFor_eq_false.mp hcycle)
  · exact refl_of (Along P) s

instance along_dropDependency {taskId predecessorId : TaskId} :
    Txn.Moves (Along P) (Txn.write fun s => { s with
      taskDependencies := s.taskDependencies.filter (· ≠ (taskId, predecessorId)) } : Tx Unit) := by
  refine .of_write fun s => Along.of_step ?_
  rw [Store.board_dropDependency]
  exact .unneed taskId predecessorId

instance along_dropGoalDependency {taskId : TaskId} {goalId : GoalId} :
    Txn.Moves (Along P) (Txn.write fun s => { s with
      taskGoalDependencies := s.taskGoalDependencies.filter (· ≠ (taskId, goalId)) } : Tx Unit) := by
  refine .of_write fun s => Along.of_step ?_
  rw [Store.board_dropGoalDependency]
  exact .unneedGoal taskId goalId

/-- A person's or plan review's transition: out of progress only when no run is under way. -/
instance along_applyTransition {taskId : TaskId} {action : TaskAction}
    {duplicateOf : Option TaskId} :
    Txn.Moves (Along P) (applyTransition taskId action duplicateOf) := by
  refine ⟨fun s task s' h => ?_⟩
  simp only [applyTransition, saveTask, Txn.read_bind, domain_bind, readTask_bind,
    Txn.write_bind] at h
  obtain ⟨row, hrow, task', htask, rest⟩ := h
  obtain ⟨status, hstatus, rfl⟩ := Task.transition_ok.mp htask
  have hmoved := TaskStatus.transition_moved hstatus
  -- What follows the save writes notices, and a column the board does not show.
  refine trans_of (Along P) (Along.of_step ?_) (Txn.Moves.of_ok rest)
  rw [Store.board_modifyTask hrow]
  refine .moveTask taskId row.view status (Store.board_task hrow) hmoved.source_open
    ⟨hmoved.target_ne_inProgress, hmoved.target_ne_completed⟩ ?_
  intro hprogress r v hv htask
  simp only [Store.board, Option.map_eq_some_iff] at hv
  obtain ⟨run, hrun, rfl⟩ := hv
  exact Store.hasUnfinishedRun_eq_false (hmoved.no_unfinished hprogress) hrun htask

/-- The goal a task may move into: open, and one the task does not wait for. -/
theorem setGoal_check {s s₁ : Store} {taskId : TaskId} {row : TaskRow} {goalId : Option GoalId}
    {u : Unit}
    (h : (Txn.option goalId (pure ()) fun goalId => do
      let goal ← readGoal goalId
      Tx.domain (Goal.checkAcceptsTasks goalId goal.goal)
      Txn.when (row.task.goalId ≠ some goalId) do
        let direct ← Txn.read fun s => decide ((taskId, goalId) ∈ s.taskGoalDependencies)
        let cycle ← Txn.read fun s => s.waitsFor (.task taskId) (.goal goalId)
        Tx.domain (Task.checkMembershipAcyclic taskId goalId direct cycle) : Tx Unit) s
      = .ok (u, s₁)) :
    s = s₁ ∧ (row.task.goalId ≠ goalId → ∀ g, goalId = some g →
      s.board.goal g = some none ∧ ¬ReflTransGen s.board.Waits (.task taskId) (.goal g)) := by
  rcases Txn.option_ok.mp h with ⟨rfl, hpure⟩ | ⟨g, rfl, hread⟩
  · rw [Txn.pure_ok] at hpure
    exact ⟨hpure.2, fun _ g hg => by cases hg⟩
  · simp only [readGoal_bind, domain_bind, Txn.when_ok, Txn.read_bind, domain_ok,
      Goal.checkAcceptsTasks_ok, Task.checkMembershipAcyclic_ok] at hread
    obtain ⟨goal, hgoal, _, hclosed, hcycle⟩ := hread
    rcases hcycle with ⟨_, ⟨_, hcycle⟩, rfl⟩ | ⟨hsame, rfl⟩
    · refine ⟨rfl, fun _ g' hg' => ?_⟩
      cases hg'
      rw [Store.board_goal hgoal]
      refine ⟨?_, Store.waitsFor_eq_false.mp hcycle⟩
      simpa [Goal.isClosed] using hclosed
    · exact ⟨rfl, fun hne => absurd (not_ne_iff.mp hsame) hne⟩

instance along_setGoal {taskId : TaskId} {goalId : Option GoalId} :
    Txn.Moves (Along P) (setGoal taskId goalId) := by
  refine ⟨fun s u s' h => ?_⟩
  simp only [setGoal, saveTask, domain_bind, readTask_bind] at h
  obtain ⟨row, hrow, task, htask, h⟩ := h
  obtain ⟨_, s₁, hcheck, hwrite⟩ := Txn.bind_ok.mp h
  obtain ⟨heditable, rfl⟩ := Task.setGoal_ok.mp htask
  obtain ⟨rfl, hopen⟩ := setGoal_check hcheck
  simp only [Txn.when_ok, Txn.write_bind] at hwrite
  rcases hwrite with ⟨hne, rest⟩ | ⟨_, rfl⟩
  · refine trans_of (Along P) (Along.of_step ?_) (Txn.Moves.of_ok rest)
    rw [Store.board_modifyTask hrow]
    exact .joinGoal taskId row.view goalId (Store.board_task hrow) heditable (hopen hne)
  · exact refl_of (Along P) s

/-- Saving a task that stays where it is. -/
theorem along_saveTask {s : Store} {id : TaskId} {row : TaskRow} {task : Task}
    (hrow : s.tasks.get? id = some row)
    (htask : task.status = row.task.status ∧ task.goalId = row.task.goalId) :
    Along P s { s with tasks := s.tasks.modify id fun row => { row with task := task } } := by
  apply Along.of_eq
  apply Store.board_modifyTask_same
  intro row' hrow'
  rw [hrow] at hrow'
  cases hrow'
  simp only [TaskRow.view, htask]

instance along_reviseTask {taskId : TaskId} {command : Task → Except DomainError Task}
    [hc : KeepsPlace command] {notice : Task → Task → Notice} :
    Txn.Moves (Along P) (reviseTask taskId command notice) := by
  refine ⟨fun s u s' h => ?_⟩
  simp only [reviseTask, saveTask, domain_bind, readTask_bind, Txn.when_ok, Txn.write_bind] at h
  obtain ⟨row, hrow, task, htask, ⟨_, rest⟩ | ⟨_, rfl⟩⟩ := h
  · exact trans_of (Along P) (along_saveTask hrow (hc.of_ok htask)) (Txn.Moves.of_ok rest)
  · exact refl_of (Along P) s

instance along_lowerPriority {taskId : TaskId} {priority : Priority} :
    Txn.Moves (Along P) (lowerPriority taskId priority) := by
  refine ⟨fun s u s' h => ?_⟩
  simp only [lowerPriority, saveTask, domain_bind, readTask_bind, Txn.write_bind] at h
  obtain ⟨row, hrow, task, htask, rest⟩ := h
  have hkeep := (inferInstance : KeepsPlace (·.setPriority priority)).of_ok htask
  exact trans_of (Along P) (along_saveTask hrow hkeep) (Txn.Moves.of_ok rest)

instance along_addGoal {new : NewGoal} : Txn.Moves (Along P) (addGoal new) := by
  refine ⟨fun s id s' h => ?_⟩
  simp only [addGoal, Txn.read_bind, domain_bind, Txn.write_bind] at h
  obtain ⟨goal, hgoal, rest⟩ := h
  refine trans_of (Along P) (Along.of_step ?_) (Txn.Moves.of_ok rest)
  rw [Store.board_pushGoal (Table.nextId_fresh _)]
  have hverdict : goal.verdict = none := Goal.create_ok hgoal
  rw [hverdict]
  refine .addGoal _ ?_
  simp [Store.board, Table.nextId_fresh]

/-- Saving a goal whose verdict stays. -/
theorem along_saveGoal {s : Store} {id : GoalId} {row : GoalRow} {goal : Goal}
    (hrow : s.goals.get? id = some row) (hverdict : goal.verdict = row.goal.verdict) :
    Along P s { s with goals := s.goals.modify id fun row => { row with goal := goal } } := by
  apply Along.of_eq
  apply Store.board_modifyGoal_same
  intro row' hrow'
  rw [hrow] at hrow'
  cases hrow'
  exact hverdict

instance along_editGoal {id : GoalId} {edit : GoalEdit} :
    Txn.Moves (Along P) (editGoal id edit) := by
  refine ⟨fun s u s' h => ?_⟩
  simp only [editGoal, saveGoal, domain_bind, readGoal_bind, Txn.ensure_bind, Txn.write_bind] at h
  obtain ⟨_, row, hrow, goal, hgoal, rest⟩ := h
  exact trans_of (Along P) (along_saveGoal hrow (Goal.edit_ok hgoal).2) (Txn.Moves.of_ok rest)

instance along_readyGoal {id : GoalId} : Txn.Moves (Along P) (readyGoal id) := by
  refine ⟨fun s u s' h => ?_⟩
  simp only [readyGoal, saveGoal, domain_bind, readGoal_bind, Txn.write_bind] at h
  obtain ⟨row, hrow, goal, hgoal, rest⟩ := h
  have hverdict : goal.verdict = row.goal.verdict := by rw [← (Goal.ready_ok hgoal).2]
  exact trans_of (Along P) (along_saveGoal hrow hverdict) (Txn.Moves.of_ok rest)

instance along_closeGoal {id : GoalId} {verdict : GoalVerdict} :
    Txn.Moves (Along P) (closeGoal id verdict) := by
  refine ⟨fun s u s' h => ?_⟩
  simp only [closeGoal, saveGoal, domain_bind, readGoal_bind, Txn.read_bind, Txn.write_bind] at h
  obtain ⟨row, hrow, goal, hgoal, rest⟩ := h
  obtain ⟨hopen, hblocking, rfl⟩ := Goal.close_ok hgoal
  refine trans_of (Along P) (Along.of_step ?_) (Txn.Moves.of_ok rest)
  rw [Store.board_modifyGoal hrow]
  refine .closeGoal id verdict ?_ ?_
  · rw [Store.board_goal hrow]
    simpa [Goal.isClosed] using hopen
  · intro t v hv hmember
    simp only [Store.board, Option.map_eq_some_iff] at hv
    obtain ⟨task, htask, rfl⟩ := hv
    apply Goal.count_eq_zero_of_blocking_nil hblocking
    rw [List.mem_map]
    exact ⟨(t, task), Table.mem_select.mpr ⟨htask, by simpa [TaskRow.view] using hmember⟩, rfl⟩

/-! ## Claims and landings -/

/-- Save a run that stays on its task. -/
theorem Store.board_apply {s : Store} {id : RunId} {row : RunRow} {run : TaskRun}
    (hrow : s.runs.get? id = some row) (htask : run.taskId = row.run.taskId) :
    ({ s with runs := s.runs.modify id fun row => { row with run := run } } : Store).board
      = s.board.setRun id { row.view (s.runEventsOf id) with
          status := run.status, resultCommit := run.resultCommit } := by
  rw [board_saveRun hrow htask]
  simp only [RunRow.view, htask]

theorem insertRun_ok {id : RunId} {run : TaskRun} {u : Unit} {s s' : Store} :
    insertRun id run s = .ok (u, s') ↔ s.runs.get? id = none ∧ s.runIsUnique id run = true ∧
      { s with runs := s.runs.push id { run := run } } = s' := by
  simp only [insertRun, Txn.read_bind, Txn.ensure_bind, Txn.write_ok, Option.isNone_iff_eq_none]

/-- What the ready query guarantees of the task it selected. -/
theorem Store.isCandidate_iff {s : Store} {id : TaskId} {row : TaskRow}
    (h : s.isCandidate id row = true) :
    row.task.status = .ready ∧ s.board.Idle id ∧
      (∀ p u, s.board.needs id p → s.board.task p = some u → u.status = .completed) ∧
      ∀ g verdict, s.board.needsGoal id g → s.board.goal g = some verdict →
        verdict = some .achieved := by
  simp only [isCandidate, Bool.and_eq_true, decide_eq_true_eq, Bool.not_eq_true'] at h
  obtain ⟨⟨⟨⟨hready, _⟩, hneeds⟩, hgoals⟩, hunfinished⟩ := h
  refine ⟨hready, ?_, ?_, ?_⟩
  · intro r v hv htask
    simp only [board, Option.map_eq_some_iff] at hv
    obtain ⟨run, hrun, rfl⟩ := hv
    exact hasUnfinishedRun_eq_false hunfinished hrun htask
  · intro p u hp hu
    simp only [board, Option.map_eq_some_iff] at hu
    obtain ⟨task, htask, rfl⟩ := hu
    rw [List.any_eq_false] at hneeds
    have hedge := hneeds (id, p) hp
    simpa [htask, TaskRow.view] using hedge
  · intro g verdict hg hverdict
    simp only [board, Option.map_eq_some_iff] at hverdict
    obtain ⟨goal, hgoal, rfl⟩ := hverdict
    rw [List.any_eq_false] at hgoals
    have hedge := hgoals (id, g) hg
    simpa [hgoal, goalIsAchieved] using hedge

instance along_claimTask {runId : RunId} {baseCommit : CommitSha} {order : List TaskId} :
    Txn.Moves (Along P) (claimTask runId baseCommit order) := by
  refine ⟨fun s taskId s' h => ?_⟩
  simp only [claimTask, saveTask, Txn.read_bind, Txn.found_bind, domain_bind, readTask_bind,
    Txn.write_bind] at h
  obtain ⟨t, hnext, row, hrow, task, htask, run, hrun, h⟩ := h
  obtain ⟨_, s₁, hinsert, rest⟩ := Txn.bind_ok.mp h
  obtain ⟨hfresh, _, rfl⟩ := insertRun_ok.mp hinsert
  obtain ⟨row', hrow', hcandidate⟩ := Store.nextClaim_isCandidate hnext
  rw [hrow] at hrow'
  cases hrow'
  obtain ⟨hready, hidle, hneeds, hgoals⟩ := Store.isCandidate_iff hcandidate
  obtain ⟨_, rfl⟩ := Task.claim_ok.mp htask
  obtain ⟨hrunTask, hclaimed, _⟩ := TaskRun.create_ok hrun
  refine trans_of (Along P) (Along.of_step ?_) (Txn.Moves.of_ok rest)
  rw [Store.board_pushRun hfresh, Store.board_modifyTask hrow, hrunTask]
  refine .claim t runId row.view _ (Store.board_task hrow) hready hidle hneeds hgoals ?_
    ⟨hrunTask, hclaimed⟩
  have hnone : s.runs.get? runId = none := hfresh
  simp [Store.board, hnone]

/-- Save a run and record a milestone of it. -/
theorem Store.board_applyMilestone {s : Store} {id : RunId} {row row' : RunRow} {run : TaskRun}
    {taskId : TaskId} {milestone : Milestone} (hrow : s.runs.get? id = some row)
    (htask : run.taskId = row.run.taskId)
    (hrow' : (s.runs.modify id fun row => { row with run := run }).get? id = some row') :
    ({ s with
        runs := s.runs.modify id fun row => { row with run := run }
        events := s.events ++ [⟨some taskId, none, some id, .milestone milestone⟩] } :
      Store).board
      = s.board.setRun id (RunRow.view { run := run } (s.runEventsOf id ++ [.milestone milestone])) := by
  have hmilestone := board_milestone taskId milestone
    (s := { s with runs := s.runs.modify id fun row => { row with run := run } }) hrow'
  rw [Table.get?_modify, if_pos rfl, hrow] at hrow'
  cases hrow'
  rw [hmilestone, board_apply hrow htask]
  simp only [Board.setRun, Function.update_idem]
  rfl

/-- What an accepted validation did to its run. -/
theorem Validation.command_ok {validation : Validation} {run run' : TaskRun}
    (h : validation.command run = .ok run') :
    run'.taskId = run.taskId ∧ run.status = .validating ∧
      (validation.accepted = true →
        (run'.status = .awaitingIntegration ∧ run'.resultCommit.isSome = true) ∧
          run'.resultCommit = validation.resultCommit) ∧
      (validation.accepted = false → run'.status = .needsSession ∨ run'.status = .failed) := by
  unfold Validation.command at h
  split at h
  · rename_i commit haccepted hcommit
    have hmoves := TaskRun.accept_ok h
    refine ⟨hmoves.taskId_eq, hmoves.source_ok, fun _ => ⟨⟨hmoves.status_eq, ?_⟩, ?_⟩, ?_⟩
    · rw [hmoves.resultCommit_eq]
      rfl
    · rw [hmoves.resultCommit_eq, hcommit]
    · rw [haccepted]
      exact fun hfalse => by cases hfalse
  · cases h
  · rename_i haccepted
    have hmoves := TaskRun.reject_ok h
    refine ⟨hmoves.taskId_eq, hmoves.source_ok, ?_, fun _ => ?_⟩
    · rw [haccepted]
      exact fun htrue => by cases htrue
    · rw [hmoves.status_eq]
      cases validation.resumable
      · exact .inr rfl
      · exact .inl rfl

instance along_finishValidation {id : RunId} {token : Token} {now : Seconds}
    {validation : Validation} :
    Txn.Moves (Along P) (finishValidation id token now validation) := by
  refine ⟨fun s run s' h => ?_⟩
  obtain ⟨_, s₁, hrenew, h⟩ := Txn.bind_ok.mp h
  obtain ⟨run', _, happly, h⟩ := Txn.bind_ok.mp h
  obtain ⟨_, _, hevent, rest⟩ := Txn.bind_ok.mp h
  obtain ⟨row, hrow, hcommand, _, _, rfl⟩ := apply_ok.mp happly
  obtain ⟨row', hrow', rfl⟩ := runEvent_ok.mp hevent
  obtain ⟨htask, hsource, haccept, hreject⟩ := Validation.command_ok hcommand
  refine trans_of (Along P) (Txn.Moves.of_ok hrenew)
    (trans_of (Along P) (Along.of_step ?_) (Txn.Moves.of_ok rest))
  rw [Store.board_applyMilestone hrow htask hrow']
  have hview : RunRow.view { run := run' } (s₁.runEventsOf id ++ [.milestone
      (.validationFinished validation.accepted validation.resultCommit run'.status)])
      = { row.view (s₁.runEventsOf id) with
          status := run'.status, resultCommit := run'.resultCommit
          accepted := some (if validation.accepted = true then run'.resultCommit else none) } := by
    by_cases haccepted : validation.accepted = true
    · simp [RunRow.view, htask, haccepted, (haccept haccepted).2]
    · simp [RunRow.view, htask, haccepted]
  rw [hview]
  exact .validate id _ _ _ _ (Store.board_run hrow) hsource (fun h => (haccept h).1) hreject

instance along_beginIntegration {id : RunId} {token : Token} {pid : Pid} {now : Seconds}
    {main : CommitSha} : Txn.Moves (Along P) (beginIntegration id token pid now main) := by
  refine ⟨fun s run s' h => ?_⟩
  simp only [beginIntegration, Txn.read_bind, Txn.ensure_bind, readRun_bind] at h
  obtain ⟨_, row, hrow, h⟩ := h
  obtain ⟨run', s₁, happly, h⟩ := Txn.bind_ok.mp h
  simp only [readLease, Txn.read_bind, Txn.ensure_bind, Txn.write_bind] at h
  obtain ⟨_, h⟩ := h
  obtain ⟨_, s₂, hevent, hpure⟩ := Txn.bind_ok.mp h
  obtain ⟨row₁, hrow₁, hcommand, _, _, rfl⟩ := apply_ok.mp happly
  rw [hrow] at hrow₁
  cases hrow₁
  obtain ⟨row', hrow', rfl⟩ := runEvent_ok.mp hevent
  have hmoves := TaskRun.beginIntegration_ok hcommand
  refine trans_of (Along P) (Along.of_step ?_) (Txn.Moves.of_ok hpure)
  -- The lease is no part of the board.
  refine (congrArg (Board.Step P s.board)
    (Store.board_applyMilestone hrow hmoves.taskId_eq hrow')).mpr ?_
  have hview : RunRow.view { run := run' }
      (s.runEventsOf id ++ [.milestone (.integrationStarted main row.run.status)])
      = { row.view (s.runEventsOf id) with
          status := .integrating, landedFrom := some row.run.status } := by
    simp [RunRow.view, hmoves.taskId_eq, hmoves.status_eq, hmoves.resultCommit_eq]
  rw [hview]
  exact .beginLanding id _ (Store.board_run hrow) hmoves.source_ok

theorem dropLease_ok {id : RunId} {token : Token} {held : Bool} {s s' : Store}
    (h : dropLease id token s = .ok (held, s')) : ∃ leases, s' = { s with leases := leases } := by
  simp only [dropLease, Txn.bind_ok, Txn.read_ok, Txn.when_ok, Txn.write_ok, Txn.pure_ok] at h
  obtain ⟨_, _, ⟨_, rfl⟩, _, _, hwrite, _, rfl⟩ := h
  rcases hwrite with ⟨_, rfl⟩ | ⟨_, rfl⟩
  · exact ⟨_, rfl⟩
  · exact ⟨s.leases, rfl⟩

instance along_finishIntegration {id : RunId} {token : Token} {now : Seconds}
    {commit mainBefore : CommitSha} :
    Txn.Moves (Along P) (finishIntegration id token now commit mainBefore) := by
  refine ⟨fun s u s' h => ?_⟩
  obtain ⟨_, s₁, hrenew, h⟩ := Txn.bind_ok.mp h
  obtain ⟨run, _, happly, h⟩ := Txn.bind_ok.mp h
  obtain ⟨row, hrow, hcommand, _, _, rfl⟩ := apply_ok.mp happly
  obtain ⟨_, _, hdrop, h⟩ := Txn.bind_ok.mp h
  obtain ⟨leases, rfl⟩ := dropLease_ok hdrop
  simp only [readTask_bind, Txn.ensure_bind, saveTask, Txn.write_bind] at h
  obtain ⟨taskRow, htaskRow, hprogress, rest⟩ := h
  have hmoves := TaskRun.finishIntegration_ok hcommand
  refine trans_of (Along P) (Txn.Moves.of_ok hrenew)
    (trans_of (Along P) (Along.of_step ?_) (Txn.Moves.of_ok rest))
  have hsave := Store.board_modifyTask
    (s := { s₁ with
      runs := s₁.runs.modify id fun row => { row with run := run }, leases := leases })
    (f := fun row => { row with task := { taskRow.task with status := .completed } }) htaskRow
  rw [hsave]
  -- The lease is no part of the board.
  have hrun : ({ s₁ with
      runs := s₁.runs.modify id fun row => { row with run := run }, leases := leases } : Store).board
      = s₁.board.setRun id { row.view (s₁.runEventsOf id) with
          status := .integrated, resultCommit := some commit } := by
    rw [← hmoves.status_eq, ← hmoves.resultCommit_eq]
    exact Store.board_apply hrow hmoves.taskId_eq
  rw [hrun, hmoves.taskId_eq]
  refine .finishLanding id _ taskRow.view commit (Store.board_run hrow) hmoves.source_ok ?_
    hprogress
  have htask := Store.board_task htaskRow
  rw [hmoves.taskId_eq] at htask
  exact htask

/-! ## The steps a policy guards -/

theorem renewLease_ok {id : RunId} {token : Token} {now : Seconds} {u : Unit} {s s' : Store}
    (h : renewLease id token now s = .ok (u, s')) :
    s.holder id = some token ∧ ∃ leases, s' = { s with leases := leases } := by
  simp only [renewLease, Txn.read_bind, Txn.ensure_bind, Txn.write_ok, decide_eq_true_eq] at h
  exact ⟨h.1, _, h.2.symm⟩

theorem deleteLease_ok {id : RunId} {held : Bool} {s s' : Store}
    (h : deleteLease id s = .ok (held, s')) : ∃ leases, s' = { s with leases := leases } := by
  simp only [deleteLease, readLease, Txn.read_bind, Txn.write_bind, Txn.pure_ok] at h
  exact ⟨_, h.2.symm⟩

/-- A command that calls a landing off, as a recovery or an abort: the board lets it when the policy
does. -/
theorem along_callOff {s : Store} {id : RunId} {row : RunRow} {run : TaskRun}
    (hrow : s.runs.get? id = some row)
    (hmoves : TaskRun.MovesTo row.run run (· = .integrating) .awaitingIntegration
      row.run.resultCommit)
    (hallowed : P.callOff s.board id) :
    Along P s { s with runs := s.runs.modify id fun row => { row with run := run } } := by
  apply Along.of_step
  rw [Store.board_apply hrow hmoves.taskId_eq, hmoves.status_eq, hmoves.resultCommit_eq]
  exact .callOff id _ (Store.board_run hrow) hmoves.source_ok hallowed

/-- Whether the run is in a landing. -/
def Store.isIntegrating (s : Store) (id : RunId) : Bool :=
  (s.runs.get? id).any fun row => row.run.status = .integrating

theorem Store.isIntegrating_iff {s : Store} {id : RunId} {row : RunRow}
    (hrow : s.runs.get? id = some row) :
    s.isIntegrating id = true ↔ row.run.status = .integrating := by
  simp [isIntegrating, hrow]

/-- Whether a recovery of the run goes ahead: its lease is not fresh, and no process registered since
the caller counted them. -/
def Store.isRecoverable (s : Store) (id : RunId) (checkedProcesses : Nat) (now : Seconds) : Bool :=
  (s.leases.get? id).all (fun l => l.heartbeatAt < now - heartbeatTimeoutSecs)
    && (s.processes.select fun k _ => k.1 = id).length = checkedProcesses

theorem along_recoverRun {s s' : Store} {id : RunId} {checked : Nat} {now : Seconds} {run : TaskRun}
    (hallowed : s.isRecoverable id checked now = true → s.isIntegrating id = true →
      P.callOff s.board id)
    (h : recoverRun id checked now s = .ok (run, s')) : Along P s s' := by
  simp only [recoverRun, readLease, Txn.read_bind, Txn.ensure_bind, readRun_bind] at h
  obtain ⟨hstale, hcount, row, hrow, h⟩ := h
  have hrecoverable : s.isRecoverable id checked now = true := by
    simp only [Store.isRecoverable, hstale, hcount, decide_true, Bool.and_self]
  obtain ⟨run', _, happly, rest⟩ := Txn.bind_ok.mp h
  obtain ⟨row', hrow', hcommand, _, _, rfl⟩ := apply_ok.mp happly
  rw [hrow] at hrow'
  cases hrow'
  have hmoves := TaskRun.interrupt_ok hcommand
  refine trans_of (Along P) ?_ (Txn.Moves.of_ok rest)
  by_cases hlanding : row.run.status = .integrating
  · rw [hlanding] at hmoves
    exact along_callOff hrow ⟨hlanding, hmoves.taskId_eq, hmoves.status_eq, hmoves.resultCommit_eq⟩
      (hallowed hrecoverable ((Store.isIntegrating_iff hrow).mpr hlanding))
  · -- A run waiting to land stays, and one at work is interrupted.
    refine along_worked hrow (.of_movesTo hmoves fun hsource => ?_)
    revert hlanding hsource
    simp only [TaskRun.unfinishedStatuses]
    cases row.run.status <;> decide

theorem along_abortIntegration {s s' : Store} {id : RunId} {token : Token} {now : Seconds}
    {revertTo : RunStatus} {code : ReasonCode} {message : String} {run : TaskRun}
    (hallowed : revertTo = .awaitingIntegration → s.holder id = some token →
      s.isIntegrating id = true → P.callOff s.board id)
    (h : abortIntegration id token now revertTo code message s = .ok (run, s')) :
    Along P s s' := by
  obtain ⟨_, _, hrenew, h⟩ := Txn.bind_ok.mp h
  obtain ⟨run', _, happly, rest⟩ := Txn.bind_ok.mp h
  obtain ⟨hholder, leases, rfl⟩ := renewLease_ok hrenew
  obtain ⟨row, hrow, hcommand, _, _, rfl⟩ := apply_ok.mp happly
  obtain ⟨hto, hmoves⟩ := TaskRun.abortIntegration_ok hcommand
  refine trans_of (Along P) (Txn.Moves.of_ok hrenew)
    (trans_of (Along P) ?_ (Txn.Moves.of_ok rest))
  rcases hto with rfl | rfl
  · exact along_callOff hrow hmoves
      (hallowed rfl hholder ((Store.isIntegrating_iff hrow).mpr hmoves.source_ok))
  · exact along_worked hrow (.of_movesTo hmoves fun hsource => .inr (by rw [hsource]; decide))

/-- Whether a resume by a recovery goes ahead: the run is failed or interrupted, and no run of its
task is under way. -/
def Store.isRevivable (s : Store) (id : RunId) : Bool :=
  (s.runs.get? id).any fun row =>
    (row.run.status = .failed || row.run.status = .interrupted)
      && !s.hasUnfinishedRun row.run.taskId

/-- The unique index of unfinished runs, met by a run that was finished: its task has none. -/
theorem Store.hasUnfinishedRun_of_unique {s : Store} {id : RunId} {row : RunRow} {run : TaskRun}
    (hrow : s.runs.get? id = some row) (htask : run.taskId = row.run.taskId)
    (hbefore : row.run.status.unfinished = false) (hafter : run.status.unfinished = true)
    (hunique : s.runIsUnique id run = true) : s.hasUnfinishedRun row.run.taskId = false := by
  rw [runIsUnique, Bool.not_eq_true', Table.any_eq_false_iff] at hunique
  rw [hasUnfinishedRun, Table.any_eq_false_iff]
  intro id' row' hrow'
  by_cases hid : id' = id
  · subst hid
    rw [hrow] at hrow'
    cases hrow'
    simp [hbefore]
  · have hother := hunique id' row' hrow'
    simp only [bne_iff_ne, ne_eq, hid, not_false_eq_true, Bool.and_eq_false_imp, hafter,
      Bool.or_eq_false_iff, Bool.true_and, htask] at hother
    grind

/-- A resume by a recovery: the board lets it when the policy does. -/
theorem along_resumeTriaged {s s' : Store} {id : RunId} {instruction : String} {u : Unit}
    (hallowed : s.isRevivable id = true → P.revive s.board id)
    (h : resumeTriaged id instruction s = .ok (u, s')) : Along P s s' := by
  obtain ⟨run, _, happly, rest⟩ := Txn.bind_ok.mp h
  obtain ⟨row, hrow, hcommand, _, hunique, rfl⟩ := apply_ok.mp happly
  have hmoves := TaskRun.resumeAfterTriage_ok hcommand
  have hrevivable : s.isRevivable id = true := by
    have hbefore : row.run.status.unfinished = false := by
      rcases hmoves.source_ok with hs | hs <;> rw [hs] <;> rfl
    have hnone := Store.hasUnfinishedRun_of_unique hrow hmoves.taskId_eq hbefore
      (by rw [hmoves.status_eq]; rfl) hunique
    simp only [Store.isRevivable, hrow, Option.any_some, hnone]
    rcases hmoves.source_ok with hs | hs <;> rw [hs] <;> rfl
  refine trans_of (Along P) (Along.of_step ?_) (Txn.Moves.of_ok rest)
  rw [Store.board_apply hrow hmoves.taskId_eq, hmoves.status_eq, hmoves.resultCommit_eq]
  exact .revive id _ (Store.board_run hrow) hmoves.source_ok (hallowed hrevivable)

theorem along_finishTriage {s s' : Store} {id : RunId} {token : Token} {now : Seconds}
    {action : TriageAction} {also : List RuntimeEvent} {u : Unit}
    (hallowed : action.instruction?.isSome = true → s.holder id = some token →
      s.isRevivable id = true → P.revive s.board id)
    (h : finishTriage id token now action also s = .ok (u, s')) : Along P s s' := by
  obtain ⟨_, _, hrenew, h⟩ := Txn.bind_ok.mp h
  refine trans_of (Along P) (Txn.Moves.of_ok hrenew) ?_
  -- Only a resume revives the run, and it was allowed to.
  cases action with
  | resume instruction =>
      obtain ⟨hholder, leases, rfl⟩ := renewLease_ok hrenew
      simp only [TriageAction.inherits, TriageAction.retries, TriageAction.instruction?,
        readRun_bind, Txn.ensure_bind, Txn.read_bind, Txn.when, Txn.option, Bool.false_eq_true,
        if_false, pure_bind] at h
      obtain ⟨_, _, _, h⟩ := h
      obtain ⟨_, _, hresume, rest⟩ := Txn.bind_ok.mp h
      have hrevive := along_resumeTriaged (s := { s with leases := leases })
        (hallowed rfl hholder) hresume
      exact trans_of (Along P) hrevive (Txn.Moves.of_ok rest)
  | retry =>
      simp only [TriageAction.instruction?, Txn.option] at h
      exact Txn.Moves.of_ok h
  | retryInherit branch head =>
      simp only [TriageAction.instruction?, Txn.option] at h
      exact Txn.Moves.of_ok h
  | wait recheckAt =>
      simp only [TriageAction.instruction?, Txn.option] at h
      exact Txn.Moves.of_ok h
  | ask askId =>
      simp only [TriageAction.instruction?, Txn.option] at h
      exact Txn.Moves.of_ok h

/-- Whether the run is the latest one of its task. -/
def Store.isLatest (s : Store) (id : RunId) : Bool :=
  (s.runs.get? id).any fun row => s.latestRun row.run.taskId = some id

/-- Whether an answer about the run is applied: no working process leases the run, it is the latest of
its task, and the ask about it is answered and unclosed. -/
def Store.isDecidable (s : Store) (id : RunId) (askId : AskId) (alive : Pid → Bool) (now : Seconds) :
    Bool :=
  (s.leases.get? id).all (fun l => l.isStale alive now) && s.isLatest id
    && (s.asks.get? askId).any fun a =>
      a.runId = some id && a.answeredAt.isSome && a.closedAt.isNone

theorem along_decideTriage {s s' : Store} {id : RunId} {askId : AskId} {answer reason : String}
    {alive : Pid → Bool} {now : Seconds} {u : Unit}
    (hallowed : answer = "resume" → s.isDecidable id askId alive now = true →
      s.isRevivable id = true → P.revive s.board id)
    (h : decideTriage id askId answer reason alive now s = .ok (u, s')) : Along P s s' := by
  simp only [decideTriage, readLease, Txn.read_bind, Txn.ensure_bind] at h
  obtain ⟨hstale, h⟩ := h
  obtain ⟨_, _, hdelete, h⟩ := Txn.bind_ok.mp h
  obtain ⟨leases, rfl⟩ := deleteLease_ok hdelete
  refine trans_of (Along P) (Txn.Moves.of_ok hdelete) ?_
  simp only [readRun_bind, Txn.ensure_bind, Txn.read_bind] at h
  obtain ⟨row, hrow, _, hlatest, hask, h⟩ := h
  obtain ⟨_, _, hanswered, rest⟩ := Txn.bind_ok.mp h
  refine trans_of (Along P) ?_ (Txn.Moves.of_ok rest)
  by_cases hresume : answer = "resume"
  · subst hresume
    have hlast : s.isLatest id = true := by
      have hrow : s.runs.get? id = some row := hrow
      have hlatest : s.latestRun row.run.taskId = some id := hlatest
      simp [Store.isLatest, hrow, hlatest]
    have hdecidable : s.isDecidable id askId alive now = true := by
      simp only [Store.isDecidable, hstale, hlast, Bool.true_and]
      exact hask
    exact along_resumeTriaged (s := { s with leases := leases }) (hallowed rfl hdecidable) hanswered
  · simp only [triageAnswered, if_neg hresume] at hanswered
    exact Txn.Moves.of_ok hanswered

/-! ## Every operation -/

/-- What the policy asks of an operation: of a recovery or an abort that calls a landing off, and of a
recovery round or an answer that revives a run. -/
def Op.Respects (P : Board.Policy) (s : Store) : Op → Prop
  | .run (.recoverRun id checkedProcesses now) =>
      s.isRecoverable id checkedProcesses now = true → s.isIntegrating id = true →
        P.callOff s.board id
  | .run (.abortIntegration id token _ revertTo _ _) =>
      revertTo = .awaitingIntegration → s.holder id = some token → s.isIntegrating id = true →
        P.callOff s.board id
  | .run (.finishTriage id token _ action _) =>
      action.instruction?.isSome = true → s.holder id = some token → s.isRevivable id = true →
        P.revive s.board id
  | .run (.decideTriage id askId answer _ alive now) =>
      answer = "resume" → s.isDecidable id askId alive now = true → s.isRevivable id = true →
        P.revive s.board id
  | _ => True

theorem Op.respects_any (s : Store) (op : Op) : op.Respects .any s := by
  unfold Op.Respects
  split <;> intros <;> trivial

theorem along_taskOp (op : TaskOp) : Txn.Moves (Along P) op.exec := by
  cases op <;> unfold TaskOp.exec <;> try infer_instance
  case note target => cases target <;> infer_instance

theorem along_askOp (op : AskOp) : Txn.Moves (Along P) op.exec := by
  cases op <;> unfold AskOp.exec <;> infer_instance

instance along_checkAction {members : List TaskId} {action : PlanReviewAction} :
    Txn.Moves (Along P) (checkAction members action) := by
  cases action <;> (unfold checkAction; infer_instance)

instance along_applyAction {action : PlanReviewAction} :
    Txn.Moves (Along P) (applyAction action) := by
  cases action <;> (unfold applyAction; infer_instance)

instance along_checkOriginals {actions : List PlanReviewAction} :
    Txn.Moves (Along P) (checkOriginals actions) := by
  have hround : ∀ action : PlanReviewAction, ∀ canceled : List TaskId, Txn.Moves (Along P)
      (match action with
        | .cancelDuplicate _ duplicateOf => Tx.ensure (duplicateOf ∉ canceled)
            s!"task {duplicateOf} is canceled as a duplicate itself; it is no original"
        | _ => pure () : Tx Unit) := by
    intro action canceled
    cases action <;> infer_instance
  unfold checkOriginals
  exact Txn.Moves.forM _

instance along_applyDecision {job : PlanReviewJob} {apply : PlanReviewApply} {now : Seconds} :
    Txn.Moves (Along P) (applyDecision job apply now) := by
  unfold applyDecision
  split <;> infer_instance

instance along_applyAnswer {id : ProposalId} {now : Seconds} {answer : PlanAnswer} :
    Txn.Moves (Along P) (applyAnswer id now answer) := by
  cases answer <;> infer_instance

set_option synthInstance.maxHeartbeats 100000 in
instance along_submitMembers {submission : Submission} {existing : Option Proposal}
    {now : Seconds} : Txn.Moves (Along P) (submitMembers submission existing now) := by
  unfold submitMembers
  infer_instance

theorem along_planOp (op : PlanOp) : Txn.Moves (Along P) op.exec := by
  cases op <;> unfold PlanOp.exec <;> infer_instance

instance along_finishResume {id : RunId} {token : Token} {now : Seconds}
    {ended : Option ResumeEnd} {reason : Option String} {keepLease : Bool} :
    Txn.Moves (Along P)
      (finishResume id token now (ended.map ResumeEnd.status) reason keepLease) := by
  cases ended with
  | none =>
      simp only [finishResume, Option.map_none, Txn.option]
      infer_instance
  | some ended =>
      simp only [finishResume, Option.map_some, Txn.option]
      infer_instance

theorem along_runOp {s : Store} (op : RunOp) (hop : (Op.run op).Respects P s) :
    Along P s (op.exec.commit s) := by
  -- Five operations move a run where others only keep it.
  cases op with
  | recoverRun id checked now =>
      rcases Txn.commit_cases (RunOp.recoverRun id checked now).exec s with ⟨u, h⟩ | h
      · obtain ⟨run, s₁, hrecover, hpure⟩ := Txn.bind_ok.mp h
        exact trans_of (Along P) (along_recoverRun hop hrecover) (Txn.Moves.of_ok hpure)
      · exact Along.of_eq (by rw [h])
  | abortIntegration id token now revertTo code message =>
      rcases Txn.commit_cases (RunOp.abortIntegration id token now revertTo code message).exec s
        with ⟨u, h⟩ | h
      · obtain ⟨run, s₁, habort, hpure⟩ := Txn.bind_ok.mp h
        exact trans_of (Along P) (along_abortIntegration hop habort) (Txn.Moves.of_ok hpure)
      · exact Along.of_eq (by rw [h])
  | finishTriage id token now action also =>
      rcases Txn.commit_cases (RunOp.finishTriage id token now action also).exec s
        with ⟨u, h⟩ | h
      · exact along_finishTriage hop h
      · exact Along.of_eq (by rw [h])
  | decideTriage id askId answer reason alive now =>
      rcases Txn.commit_cases (RunOp.decideTriage id askId answer reason alive now).exec s
        with ⟨u, h⟩ | h
      · exact along_decideTriage hop h
      · exact Along.of_eq (by rw [h])
  | finishResume id token now ended reason keepLease =>
      exact (along_finishResume : Txn.Moves (Along P) _).commit s
  | _ =>
      refine Txn.Moves.commit ?_ s
      unfold RunOp.exec
      infer_instance

/-- Every step of the queue is a sequence of steps of the board, with the two steps the queue leaves
unguarded taken as the policy allows when the operation respects it. -/
theorem queue_refines {s : Store} {op : Op} (hop : op.Respects P s) :
    Along P s (queue.next s op) := by
  cases op with
  | task op => exact (along_taskOp op).commit s
  | run op => exact along_runOp op hop
  | ask op => exact (along_askOp op).commit s
  | plan op => exact (along_planOp op).commit s

end Dagq
