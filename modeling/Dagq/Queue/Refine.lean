/-
# Dagq.Queue.Refine -- the tables refine the board.

`Store.board` reads a board off the tables and the log.  Every transaction of the queue moves it along
a sequence of the board's steps: most leave it alone, and the ones whose guards matter are proved to be
the step they stand for.
-/
import Dagq.Queue.Op
import Dagq.Queue.Promises

namespace Dagq

open Lib Relation

/-! ## The board of a store -/

def TaskRow.view (row : TaskRow) : TaskView := ⟨row.task.status, row.task.goalId⟩

/-- A run as the board sees it, with the events of its log. -/
def RunRow.view (row : RunRow) (events : List EventBody) : RunView where
  taskId := row.run.taskId
  status := row.run.status
  resultCommit := row.run.resultCommit
  accepted := lastValidation events
  landedFrom := lastLandingSource events

namespace Store

def board (s : Store) : Board where
  task t := (s.tasks.get? t).map TaskRow.view
  goal g := (s.goals.get? g).map fun row => row.goal.verdict
  run r := (s.runs.get? r).map fun row => row.view (s.runEventsOf r)
  latest := s.latestRun
  needs t p := (t, p) ∈ s.taskDependencies
  needsGoal t g := (t, g) ∈ s.taskGoalDependencies

variable {s : Store}

theorem board_task {t : TaskId} {row : TaskRow} (h : s.tasks.get? t = some row) :
    s.board.task t = some row.view := by
  simp [board, h]

theorem board_goal {g : GoalId} {row : GoalRow} (h : s.goals.get? g = some row) :
    s.board.goal g = some row.goal.verdict := by
  simp [board, h]

theorem board_run {r : RunId} {row : RunRow} (h : s.runs.get? r = some row) :
    s.board.run r = some (row.view (s.runEventsOf r)) := by
  simp [board, h]

theorem board_withEvents {events : List Event} {f : RunId → Option RunView}
    (h : ∀ r, (s.runs.get? r).map
      (fun row => row.view (({ s with events := events } : Store).runEventsOf r)) = f r) :
    ({ s with events := events } : Store).board = { s.board with run := f } := by
  have hf : f = fun r => (s.runs.get? r).map
      fun row => row.view (({ s with events := events } : Store).runEventsOf r) :=
    funext fun r => (h r).symm
  rw [hf]
  rfl

/-- A notice says nothing about where anything stands. -/
@[simp] theorem board_notice {taskId : Option TaskId} {goalId : Option GoalId}
    {runId : Option RunId} {notice : Notice} :
    ({ s with events := s.events ++ [⟨taskId, goalId, runId, .notice notice⟩] } : Store).board
      = s.board := by
  apply board_withEvents
  intro r
  rw [runEventsOf_record]
  split_ifs
  · simp [RunRow.view]
  · rfl

/-- Neither does a step of a review or a landing. -/
@[simp] theorem board_runtime {taskId : Option TaskId} {goalId : Option GoalId}
    {runId : Option RunId} {event : RuntimeEvent} :
    ({ s with events := s.events ++ [⟨taskId, goalId, runId, .runtime event⟩] } : Store).board
      = s.board := by
  apply board_withEvents
  intro r
  rw [runEventsOf_record]
  split_ifs
  · simp [RunRow.view]
  · rfl

/-- The edges of the recursive query are the waits of the board. -/
theorem edge_waitEdges {x y : Node} : Graph.Edge s.waitEdges x y ↔ s.board.Waits x y := by
  simp only [Graph.Edge, waitEdges, List.mem_append, List.mem_map, List.mem_filterMap]
  constructor
  · rintro ((⟨e, he, heq⟩ | ⟨e, he, heq⟩) | ⟨⟨t, row⟩, hmem, hmap⟩)
    · cases heq
      exact .predecessor he
    · cases heq
      exact .goal he
    · rw [Option.map_eq_some_iff] at hmap
      obtain ⟨g, hg, heq⟩ := hmap
      cases heq
      exact .member (board_task (Table.mem_rows_iff.mp hmem)) hg
  · rintro (hn | hn | ⟨hv, hg⟩)
    · exact .inl (.inl ⟨_, hn, rfl⟩)
    · exact .inl (.inr ⟨_, hn, rfl⟩)
    · simp only [board, Option.map_eq_some_iff] at hv
      obtain ⟨row, hrow, rfl⟩ := hv
      exact .inr ⟨(_, row), Table.mem_rows_iff.mpr hrow, by
        rw [Option.map_eq_some_iff]
        exact ⟨_, hg, rfl⟩⟩

/-- `waitsFor` decides whether one node leads to another on the board. -/
theorem waitsFor_eq_false {source target : Node} :
    s.waitsFor source target = false ↔ ¬ReflTransGen s.board.Waits source target := by
  have hrel : Graph.Edge s.waitEdges = s.board.Waits := by
    funext x y
    exact propext edge_waitEdges
  simp [waitsFor, Graph.mem_reached_iff, hrel]

/-! ### Writes -/

theorem board_addDependency {t p : TaskId} :
    ({ s with taskDependencies := s.taskDependencies ++ [(t, p)] } : Store).board
      = { s.board with needs := fun x y => s.board.needs x y ∨ (x = t ∧ y = p) } := by
  have hneeds : (fun x y => (x, y) ∈ s.taskDependencies ++ [(t, p)])
      = fun x y => s.board.needs x y ∨ (x = t ∧ y = p) := by
    funext x y
    simp [board]
  rw [← hneeds]
  rfl

theorem board_dropDependency {t p : TaskId} :
    ({ s with taskDependencies := s.taskDependencies.filter (· ≠ (t, p)) } : Store).board
      = { s.board with needs := fun x y => s.board.needs x y ∧ (x, y) ≠ (t, p) } := by
  have hneeds : (fun x y => (x, y) ∈ s.taskDependencies.filter (· ≠ (t, p)))
      = fun x y => s.board.needs x y ∧ (x, y) ≠ (t, p) := by
    funext x y
    rw [List.mem_filter, decide_eq_true_eq]
    rfl
  rw [← hneeds]
  rfl

theorem board_addGoalDependency {t : TaskId} {g : GoalId} :
    ({ s with taskGoalDependencies := s.taskGoalDependencies ++ [(t, g)] } : Store).board
      = { s.board with needsGoal := fun x y => s.board.needsGoal x y ∨ (x = t ∧ y = g) } := by
  have hneeds : (fun x y => (x, y) ∈ s.taskGoalDependencies ++ [(t, g)])
      = fun x y => s.board.needsGoal x y ∨ (x = t ∧ y = g) := by
    funext x y
    simp [board]
  rw [← hneeds]
  rfl

theorem board_dropGoalDependency {t : TaskId} {g : GoalId} :
    ({ s with taskGoalDependencies := s.taskGoalDependencies.filter (· ≠ (t, g)) } : Store).board
      = { s.board with needsGoal := fun x y => s.board.needsGoal x y ∧ (x, y) ≠ (t, g) } := by
  have hneeds : (fun x y => (x, y) ∈ s.taskGoalDependencies.filter (· ≠ (t, g)))
      = fun x y => s.board.needsGoal x y ∧ (x, y) ≠ (t, g) := by
    funext x y
    rw [List.mem_filter, decide_eq_true_eq]
    rfl
  rw [← hneeds]
  rfl

theorem board_withTasks {tasks : Table TaskId TaskRow} {f : TaskId → Option TaskView}
    (h : ∀ t, (tasks.get? t).map TaskRow.view = f t) :
    ({ s with tasks := tasks } : Store).board = { s.board with task := f } := by
  have hf : f = fun t => (tasks.get? t).map TaskRow.view := funext fun t => (h t).symm
  rw [hf]
  rfl

theorem board_pushTask {id : TaskId} {row : TaskRow} (h : s.tasks.get? id = none) :
    ({ s with tasks := s.tasks.push id row } : Store).board = s.board.setTask id row.view := by
  apply board_withTasks
  intro t
  rw [Table.get?_push h, Function.update_apply]
  split_ifs <;> rfl

theorem board_modifyTask {id : TaskId} {row : TaskRow} {f : TaskRow → TaskRow}
    (h : s.tasks.get? id = some row) :
    ({ s with tasks := s.tasks.modify id f } : Store).board = s.board.setTask id (f row).view := by
  apply board_withTasks
  intro t
  rw [Table.get?_modify, Function.update_apply, h]
  split_ifs <;> rfl

/-- Rewriting what the board does not show of a task. -/
theorem board_modifyTask_same {id : TaskId} {f : TaskRow → TaskRow}
    (hf : ∀ row, s.tasks.get? id = some row → (f row).view = row.view) :
    ({ s with tasks := s.tasks.modify id f } : Store).board = s.board := by
  apply board_withTasks
  intro t
  rw [Table.get?_modify]
  split_ifs with ht
  · subst ht
    cases hrow : s.tasks.get? t with
    | none => rfl
    | some row => exact congrArg some (hf row hrow)
  · rfl

theorem board_withGoals {goals : Table GoalId GoalRow} {f : GoalId → Option (Option GoalVerdict)}
    (h : ∀ g, (goals.get? g).map (fun row => row.goal.verdict) = f g) :
    ({ s with goals := goals } : Store).board = { s.board with goal := f } := by
  have hf : f = fun g => (goals.get? g).map fun row => row.goal.verdict :=
    funext fun g => (h g).symm
  rw [hf]
  rfl

theorem board_pushGoal {id : GoalId} {row : GoalRow} (h : s.goals.get? id = none) :
    ({ s with goals := s.goals.push id row } : Store).board
      = s.board.setGoal id row.goal.verdict := by
  apply board_withGoals
  intro g
  rw [Table.get?_push h, Function.update_apply]
  split_ifs <;> rfl

theorem board_modifyGoal {id : GoalId} {row : GoalRow} {f : GoalRow → GoalRow}
    (h : s.goals.get? id = some row) :
    ({ s with goals := s.goals.modify id f } : Store).board
      = s.board.setGoal id (f row).goal.verdict := by
  apply board_withGoals
  intro g
  rw [Table.get?_modify, Function.update_apply, h]
  split_ifs <;> rfl

/-- Rewriting what the board does not show of a goal. -/
theorem board_modifyGoal_same {id : GoalId} {f : GoalRow → GoalRow}
    (hf : ∀ row, s.goals.get? id = some row → (f row).goal.verdict = row.goal.verdict) :
    ({ s with goals := s.goals.modify id f } : Store).board = s.board := by
  apply board_withGoals
  intro g
  rw [Table.get?_modify]
  split_ifs with hg
  · subst hg
    cases hrow : s.goals.get? g with
    | none => rfl
    | some row => exact congrArg some (hf row hrow)
  · rfl

theorem board_withRuns {runs : Table RunId RunRow} {f : RunId → Option RunView}
    {latest : TaskId → Option RunId}
    (h : ∀ r, (runs.get? r).map (fun row => row.view (s.runEventsOf r)) = f r)
    (hlatest : ∀ t, (runs.last? fun _ row => row.run.taskId = t).map Prod.fst = latest t) :
    ({ s with runs := runs } : Store).board = { s.board with run := f, latest := latest } := by
  have hf : f = fun r => (runs.get? r).map fun row => row.view (s.runEventsOf r) :=
    funext fun r => (h r).symm
  have hl : latest = fun t => (runs.last? fun _ row => row.run.taskId = t).map Prod.fst :=
    funext fun t => (hlatest t).symm
  rw [hf, hl]
  rfl

theorem board_modifyRun {id : RunId} {row : RunRow} {f : RunRow → RunRow}
    (h : s.runs.get? id = some row) (htask : (f row).run.taskId = row.run.taskId) :
    ({ s with runs := s.runs.modify id f } : Store).board
      = s.board.setRun id ((f row).view (s.runEventsOf id)) := by
  apply board_withRuns
  · intro r
    rw [Table.get?_modify, Function.update_apply, h]
    split_ifs with hr
    · subst hr
      rfl
    · rfl
  · intro t
    apply Table.last?_modify_key
    intro row' hrow'
    rw [h] at hrow'
    cases hrow'
    rw [htask]

/-- Rewriting what the board does not show of a run. -/
theorem board_modifyRun_same {id : RunId} {f : RunRow → RunRow}
    (hf : ∀ row, s.runs.get? id = some row →
      ∀ events, (f row).view events = row.view events) :
    ({ s with runs := s.runs.modify id f } : Store).board = s.board := by
  apply board_withRuns
  · intro r
    rw [Table.get?_modify]
    split_ifs with hr
    · subst hr
      cases hrow : s.runs.get? r with
      | none => rfl
      | some row => exact congrArg some (hf row hrow _)
    · rfl
  · intro t
    apply Table.last?_modify_key
    intro row hrow
    have htask := congrArg RunView.taskId (hf row hrow [])
    simp only [RunRow.view] at htask
    rw [htask]

theorem board_pushRun {id : RunId} {row : RunRow} (h : s.runs.get? id = none) :
    ({ s with runs := s.runs.push id row } : Store).board
      = { s.board.setRun id (row.view (s.runEventsOf id)) with
          latest := Function.update s.board.latest row.run.taskId (some id) } := by
  apply board_withRuns
  · intro r
    rw [Table.get?_push h, Board.setRun_run]
    split_ifs with hr
    · subst hr
      rfl
    · rfl
  · intro t
    rw [Table.last?_push h, Function.update_apply]
    by_cases ht : row.run.taskId = t
    · simp [ht]
    · have hne : ¬t = row.run.taskId := fun h => ht h.symm
      simp only [ht, decide_false, Bool.false_eq_true, if_false, hne]
      rfl

/-- The log shows on the board through the last validation and the last landing of each run. -/
theorem board_milestone (taskId : TaskId) (milestone : Milestone) {id : RunId} {row : RunRow}
    (h : s.runs.get? id = some row) :
    ({ s with
        events := s.events ++ [⟨some taskId, none, some id, .milestone milestone⟩] } : Store).board
      = s.board.setRun id (row.view (s.runEventsOf id ++ [.milestone milestone])) := by
  apply board_withEvents
  intro r
  rw [runEventsOf_record, Function.update_apply]
  by_cases hr : r = id
  · subst hr
    simp [h]
  · have hne : ¬some id = some r := fun heq => hr (Option.some.inj heq).symm
    simp only [hne, if_false, hr]
    rfl

end Store

/-! ## Moving the board -/

/-- The board moves along a sequence of its steps. -/
def Along (P : Board.Policy) (s s' : Store) : Prop :=
  ReflTransGen (Board.Step P) s.board s'.board

variable {P : Board.Policy}

instance : IsPreorder Store (Along P) where
  refl _ := .refl
  trans _ _ _ := ReflTransGen.trans

theorem Along.of_eq {s s' : Store} (h : s'.board = s.board) : Along P s s' := by
  unfold Along
  rw [h]

theorem Along.of_step {s s' : Store} (h : Board.Step P s.board s'.board) : Along P s s' :=
  .single h

/-- A write to tables the board does not show. -/
instance along_write {leases : Store → Table RunId Lease}
    {processes : Store → Table (RunId × ProcessRole) RunProcess}
    {supervisors : Store → Table Token Supervisor}
    {proposals : Store → Table ProposalId ProposalRow}
    {planReviews : Store → Table PlanReviewId PlanReviewRow} {asks : Store → Table AskId Ask}
    {draftOrigins : Store → Table TaskId DraftOrigin} :
    Txn.Moves (Along P) (Txn.write fun s => Store.mk s.goals s.tasks s.taskDependencies
      s.taskGoalDependencies s.runs (leases s) (processes s) (supervisors s) (proposals s)
      (planReviews s) (asks s) (draftOrigins s) s.events : Tx Unit) :=
  .of_write fun _ => .of_eq rfl

instance along_notice {taskId : Option TaskId} {goalId : Option GoalId} {runId : Option RunId}
    {notice : Notice} : Txn.Moves (Along P) (record ⟨taskId, goalId, runId, .notice notice⟩) :=
  .of_write fun _ => .of_eq Store.board_notice

instance along_runtime {taskId : Option TaskId} {goalId : Option GoalId} {runId : Option RunId}
    {event : RuntimeEvent} : Txn.Moves (Along P) (record ⟨taskId, goalId, runId, .runtime event⟩) :=
  .of_write fun _ => .of_eq Store.board_runtime

/-- The columns of a task next to the task itself. -/
instance along_taskColumns {id : TaskId} {proposalId : TaskRow → Option ProposalId}
    {depth : TaskRow → Nat} :
    Txn.Moves (Along P) (Txn.write fun s => { s with
      tasks := s.tasks.modify id fun row =>
        TaskRow.mk row.task (proposalId row) (depth row) } : Tx Unit) :=
  .of_write fun _ => .of_eq (Store.board_modifyTask_same fun _ _ => rfl)

instance along_goalColumns {id : GoalId} {proposalId : GoalRow → Option ProposalId} :
    Txn.Moves (Along P) (Txn.write fun s => { s with
      goals := s.goals.modify id fun row => GoalRow.mk row.goal (proposalId row) } : Tx Unit) :=
  .of_write fun _ => .of_eq (Store.board_modifyGoal_same fun _ _ => rfl)

instance along_runColumns {id : RunId} {token : RunRow → Option Token} :
    Txn.Moves (Along P) (Txn.write fun s => { s with
      runs := s.runs.modify id fun row => RunRow.mk row.run (token row) } : Tx Unit) :=
  .of_write fun _ => .of_eq (Store.board_modifyRun_same fun _ _ _ => rfl)

section Leases

variable {id : RunId} {token : Token}

instance along_insertLease {lease : Lease} : Txn.Moves (Along P) (insertLease id lease) := by
  unfold insertLease
  infer_instance

instance along_deleteLease : Txn.Moves (Along P) (deleteLease id) := by
  unfold deleteLease
  infer_instance

instance along_dropLease : Txn.Moves (Along P) (dropLease id token) := by
  unfold dropLease
  infer_instance

instance along_renewLease {now : Seconds} : Txn.Moves (Along P) (renewLease id token now) := by
  unfold renewLease
  infer_instance

end Leases

end Dagq
