/-
# Dagq.Queue.PlanTouches -- what the end of a plan review may touch.

A verdict is a document of any shape: actions on any tasks in any order, and tasks to reopen.  All its
actions are checked against the queue as it stood, then applied one after the other, so the frame is
stated against that queue and kept by every step: a task that changed was a submitted member of the
proposal, or a ready task that now waits in a new proposal of its own.
-/
import Dagq.Queue.Waiting

namespace Dagq

open Lib Relation

set_option synthInstance.maxSize 100000

/-! ## The frame -/

/-- A submitted task of the proposal. -/
structure Store.SubmittedMember (s : Store) (p : ProposalId) (t : TaskId) : Prop where
  member : s.proposalOf t = some p
  submitted : s.taskStatus t = some .submitted

/-- What may become of a task's row. -/
inductive TaskChange (p : ProposalId) : Option TaskRow → Option TaskRow → Prop
  | same {row : Option TaskRow} : TaskChange p row row
  /-- A submitted task of the proposal has another status, or a priority no higher. -/
  | member {row : TaskRow} {status : TaskStatus} {priority : Priority} :
      row.proposalId = some p → row.task.status = .submitted →
      priority.asI64 ≤ row.task.priority.asI64 →
      TaskChange p (some row)
        (some { row with task := { row.task with status := status, priority := priority } })
  /-- A ready task of another proposal, or of none, waits in `q`. -/
  | reopened {row : TaskRow} {q : ProposalId} : row.proposalId ≠ some p → row.task.status = .ready →
      TaskChange p (some row)
        (some { row with task := { row.task with status := .submitted }, proposalId := some q })

/-- The task came to `q` since `s₀`. -/
def Joined (s₀ s : Store) (t : TaskId) (q : ProposalId) : Prop :=
  s.proposalOf t = some q ∧ s₀.proposalOf t ≠ some q

/-- From `s₀` to `s` nothing but the proposal `p` was touched, and the tasks named that were reopened. -/
structure Touched (s₀ : Store) (p : ProposalId) (named : List TaskId) (s : Store) : Prop where
  task : ∀ t, TaskChange p (s₀.tasks.get? t) (s.tasks.get? t)
  /-- Who came to a proposal is alone there: it is new, and its planner's. -/
  joined : ∀ {t q}, Joined s₀ s t q → s₀.proposals.get? q = none ∧
    s.proposalStatus q = some .revising ∧ t ∈ named ∧ ∀ t', Joined s₀ s t' q → t' = t
  proposals : ∀ {q row}, q ≠ p → s₀.proposals.get? q = some row → s.proposals.get? q = some row
  kept : ∀ {q}, s.proposals.get? q = none → s₀.proposals.get? q = none
  /-- Waits were added to submitted tasks of the proposal only. -/
  dependencies : ∃ added, s.taskDependencies = s₀.taskDependencies ++ added ∧
    ∀ e ∈ added, s₀.SubmittedMember p e.1
  goalDependencies : s.taskGoalDependencies = s₀.taskGoalDependencies
  runs : s.runs = s₀.runs
  leases : s.leases = s₀.leases
  acyclic : Graph.Acyclic (Graph.Edge s₀.waitEdges) → Graph.Acyclic (Graph.Edge s.waitEdges)

section Frame

variable {s₀ s s' : Store} {p : ProposalId} {t : TaskId} {named : List TaskId}

theorem Touched.refl (s₀ : Store) (p : ProposalId) (named : List TaskId) : Touched s₀ p named s₀ where
  task _ := .same
  joined h := absurd h.1 h.2
  proposals _ h := h
  kept h := h
  dependencies := ⟨[], by simp, by simp⟩
  goalDependencies := rfl
  runs := rfl
  leases := rfl
  acyclic h := h

/-- What is known of a change, with the row it was made to. -/
theorem TaskChange.cases {before now : Option TaskRow} (h : TaskChange p before now) :
    now = before ∨
      (∃ row status priority, before = some row ∧ row.proposalId = some p ∧
        row.task.status = .submitted ∧ Priority.asI64 priority ≤ row.task.priority.asI64 ∧
        now = some { row with task := { row.task with status := status, priority := priority } }) ∨
      ∃ row q, before = some row ∧ row.proposalId ≠ some p ∧ row.task.status = .ready ∧
        now = some { row with task := { row.task with status := .submitted }, proposalId := some q } := by
  cases h with
  | same => exact .inl rfl
  | member hof hsubmitted hle => exact .inr (.inl ⟨_, _, _, rfl, hof, hsubmitted, hle, rfl⟩)
  | reopened hother hready => exact .inr (.inr ⟨_, _, rfl, hother, hready, rfl⟩)

/-- A task of the proposal that waits for plan review now did so from the start. -/
theorem Touched.submittedMember (h : Touched s₀ p named s) (hmember : s₀.proposalOf t = some p)
    (hsubmitted : s.taskStatus t = some .submitted) : s₀.SubmittedMember p t := by
  refine ⟨hmember, ?_⟩
  rcases (h.task t).cases with hsame | ⟨row, _, _, hrow, _, hsub, _⟩ | ⟨row, q, hrow, hother, _⟩
  · rw [Store.taskStatus, hsame] at hsubmitted
    exact hsubmitted
  · rw [Store.taskStatus_of_get hrow, hsub]
  · rw [Store.proposalOf, hrow] at hmember
    exact absurd hmember hother

/-- The row of such a task now. -/
theorem Touched.row (h : Touched s₀ p named s) (hmember : s₀.SubmittedMember p t) :
    ∃ row status priority, s₀.tasks.get? t = some row ∧ row.proposalId = some p ∧
      row.task.status = .submitted ∧ Priority.asI64 priority ≤ row.task.priority.asI64 ∧
      s.tasks.get? t =
        some { row with task := { row.task with status := status, priority := priority } } := by
  obtain ⟨row, hrow, hstatus⟩ := Option.map_eq_some_iff.mp hmember.submitted
  have hof : row.proposalId = some p := by
    have hof := hmember.member
    rw [Store.proposalOf, hrow] at hof
    exact hof
  rcases (h.task t).cases with hsame | ⟨row', status, priority, hrow', hof', hsub, hle, hnow⟩ |
    ⟨row', q, hrow', _, hready, _⟩
  · exact ⟨row, row.task.status, row.task.priority, hrow, hof, hstatus, Nat.le_refl _,
      hsame.trans hrow⟩
  · exact ⟨row', status, priority, hrow', hof', hsub, hle, hnow⟩
  · rw [hrow] at hrow'
    cases hrow'
    rw [hready] at hstatus
    cases hstatus

/-! ## Waits -/

/-- Tasks that stay in their goals wait for no more than before. -/
theorem edges_of_goals (hgoals : ∀ t row, s'.tasks.get? t = some row →
      ∃ row', s.tasks.get? t = some row' ∧ row'.task.goalId = row.task.goalId)
    (htasks : s'.taskDependencies = s.taskDependencies)
    (hgoalDeps : s'.taskGoalDependencies = s.taskGoalDependencies) ⦃x y : Node⦄
    (h : Graph.Edge s'.waitEdges x y) : Graph.Edge s.waitEdges x y := by
  rw [Store.edge_waitEdges] at h ⊢
  rcases h with hneeds | hneeds | ⟨hview, hgoal⟩
  · exact .predecessor (by rw [Store.board, htasks] at hneeds; exact hneeds)
  · exact .goal (by rw [Store.board, hgoalDeps] at hneeds; exact hneeds)
  · obtain ⟨row, hrow, rfl⟩ := Option.map_eq_some_iff.mp hview
    obtain ⟨row', hrow', heq⟩ := hgoals _ row hrow
    exact .member (Store.board_task hrow') (heq.trans hgoal)

/-! ## Writes -/

/-- A relation that an invariant is kept by. -/
def Keeping (I : Store → Prop) (s s' : Store) : Prop := I s → I s'

instance {I : Store → Prop} : IsPreorder Store (Keeping I) where
  refl _ h := h
  trans _ _ _ h₁ h₂ h := h₂ (h₁ h)

instance touched_write {goals : Store → Table GoalId GoalRow}
    {planReviews : Store → Table PlanReviewId PlanReviewRow} {asks : Store → Table AskId Ask}
    {events : Store → List Event} :
    Txn.Moves (Keeping (Touched s₀ p named)) (Txn.write fun s => { s with
      goals := goals s, planReviews := planReviews s, asks := asks s, events := events s } : Tx Unit) :=
  .of_write fun _ h => {
    task := h.task, joined := h.joined, proposals := h.proposals, kept := h.kept
    dependencies := h.dependencies, goalDependencies := h.goalDependencies
    runs := h.runs, leases := h.leases, acyclic := h.acyclic }

instance touched_record {event : Event} : Txn.Moves (Keeping (Touched s₀ p named)) (record event) := by
  unfold record
  infer_instance

/-- A task's row is rewritten: it stays where it is, and its change is one of the allowed ones. -/
theorem Touched.setTask (h : Touched s₀ p named s) {f : TaskRow → TaskRow} {row : TaskRow}
    (hrow : s.tasks.get? t = some row) (hof : (f row).proposalId = row.proposalId)
    (hgoal : (f row).task.goalId = row.task.goalId)
    (hchange : TaskChange p (s₀.tasks.get? t) (some (f row))) :
    Touched s₀ p named { s with tasks := s.tasks.modify t f } := by
  -- One row changes, and keeps its proposal.
  have hget : ∀ t', (s.tasks.modify t f).get? t' =
      if t' = t then some (f row) else s.tasks.get? t' := Table.get?_modify_of_get hrow
  have hproposalOf : ∀ t', ({ s with tasks := s.tasks.modify t f } : Store).proposalOf t' =
      s.proposalOf t' := by
    intro t'
    rw [Store.proposalOf, hget]
    split_ifs with ht
    · rw [ht, Store.proposalOf, hrow]
      exact hof
    · rfl
  refine ⟨fun t' => ?_, fun {t' q} hjoined => ?_, h.proposals, h.kept, h.dependencies,
    h.goalDependencies, h.runs, h.leases,
    fun hacyclic => (h.acyclic hacyclic).mono (edges_of_goals ?_ rfl rfl)⟩
  · rw [hget]
    split_ifs with ht
    · rw [ht]
      exact hchange
    · exact h.task t'
  · unfold Joined at hjoined ⊢
    simp only [hproposalOf] at hjoined ⊢
    exact h.joined hjoined
  · intro t' row' hrow'
    rw [hget] at hrow'
    split_ifs at hrow' with ht
    · cases hrow'
      exact ⟨row, ht ▸ hrow, hgoal.symm⟩
    · exact ⟨row', hrow', rfl⟩

/-- A submitted task of the proposal is saved with another status, or a priority that is allowed. -/
theorem Touched.saveTask (h : Touched s₀ p named s) (hmember : s₀.SubmittedMember p t) {row : TaskRow}
    {task : Task} (hrow : s.tasks.get? t = some row)
    (htask : (∃ status, task = { row.task with status := status }) ∨
      ∃ priority, task = { row.task with priority := priority } ∧
        ∀ row₀, s₀.tasks.get? t = some row₀ → priority.asI64 ≤ row₀.task.priority.asI64) :
    Touched s₀ p named { s with tasks := s.tasks.modify t fun row => { row with task := task } } := by
  obtain ⟨row₀, status, priority, hrow₀, hof, hsubmitted, hle, hnow⟩ := h.row hmember
  rw [hrow] at hnow
  cases hnow
  rcases htask with ⟨status', rfl⟩ | ⟨priority', rfl, hlower⟩
  · refine h.setTask hrow rfl rfl ?_
    rw [hrow₀]
    exact .member hof hsubmitted hle
  · refine h.setTask hrow rfl rfl ?_
    rw [hrow₀]
    exact .member hof hsubmitted (hlower row₀ hrow₀)

/-! ## Steps -/

/-- What a transition that is no bypass leaves. -/
theorem transitionTask_ok {action : TaskAction} (haction : action ≠ .bypassReview) {task : Task}
    (h : transitionTask t action s = .ok (task, s')) : ∃ row status unfinished,
      s.tasks.get? t = some row ∧ row.task.status.transition action unfinished = .ok status ∧
      ∃ events, s' = { s with
        tasks := s.tasks.modify t fun row' => { row' with task := { row.task with status := status } }
        events := events } := by
  simp only [transitionTask, applyTransition, readTask_bind, Txn.read_bind, domain_bind, saveTask,
    Txn.write_bind] at h
  obtain ⟨row, hrow, _, htransition, h⟩ := h
  obtain ⟨status, hstatus, rfl⟩ := Task.transition_ok.mp htransition
  simp only [Txn.when, if_neg haction, pure_bind, Txn.bind_ok, record_ok, Txn.pure_ok] at h
  obtain ⟨_, s₁, rfl, _, rfl⟩ := h
  exact ⟨row, status, _, hrow, hstatus, _, rfl⟩

/-- A submitted task of the proposal goes to another status. -/
theorem touched_transition {action : TaskAction} (haction : action ≠ .bypassReview)
    (hmember : s₀.SubmittedMember p t) :
    Txn.Moves (Keeping (Touched s₀ p named)) (transitionTask t action) := by
  refine ⟨fun s task s' h hs => ?_⟩
  obtain ⟨row, status, _, hrow, _, events, rfl⟩ := transitionTask_ok haction h
  have hsaved := hs.saveTask hmember hrow (.inl ⟨status, rfl⟩)
  exact { hsaved with }

theorem touched_lowerPriority {priority : Priority} (hmember : s₀.SubmittedMember p t)
    (hlower : ∀ row₀, s₀.tasks.get? t = some row₀ → priority.asI64 ≤ row₀.task.priority.asI64) :
    Txn.Moves (Keeping (Touched s₀ p named)) (lowerPriority t priority) := by
  refine ⟨fun s u s' h hs => ?_⟩
  simp only [lowerPriority, readTask_bind, domain_bind, Dagq.saveTask, Txn.write_bind] at h
  obtain ⟨row, hrow, task, htask, h⟩ := h
  have hsaved := hs.saveTask hmember hrow (.inr ⟨priority, Task.setPriority_ok htask, hlower⟩)
  exact (Txn.Moves.of_ok (R := Keeping (Touched s₀ p named)) h) hsaved

/-- A wait is added to a submitted task of the proposal, when it closes no cycle. -/
theorem Touched.addDependency {other : TaskId} (h : Touched s₀ p named s) (hmember : s₀.SubmittedMember p t)
    (hcycle : s.waitsFor (.task other) (.task t) = false) :
    Touched s₀ p named { s with taskDependencies := s.taskDependencies ++ [(t, other)] } := by
  obtain ⟨added, hadded, hmembers⟩ := h.dependencies
  refine ⟨h.task, h.joined, h.proposals, h.kept, ⟨added ++ [(t, other)], ?_, ?_⟩, h.goalDependencies,
    h.runs, h.leases, fun hacyclic => ?_⟩
  · show s.taskDependencies ++ [(t, other)] = _
    rw [hadded, List.append_assoc]
  · intro e he
    rcases List.mem_append.mp he with he | he
    · exact hmembers e he
    · rw [List.mem_singleton.mp he]
      exact hmember
  · -- The check before the write: the other task does not wait for this one.
    have hback : ¬ReflTransGen (Graph.Edge s.waitEdges) (.task other) (.task t) := by
      have hrel : Graph.Edge s.waitEdges = s.board.Waits := by
        funext x y
        exact propext Store.edge_waitEdges
      rw [hrel]
      exact Store.waitsFor_eq_false.mp hcycle
    refine ((h.acyclic hacyclic).withEdge hback).mono fun x y hxy => ?_
    rw [Store.edge_waitEdges] at hxy
    rcases hxy with hneeds | hneeds | ⟨hview, hgoal⟩
    · rcases List.mem_append.mp hneeds with hold | hnew
      · exact .inl (Store.edge_waitEdges.mpr (.predecessor hold))
      · cases List.mem_singleton.mp hnew
        exact .inr ⟨rfl, rfl⟩
    · exact .inl (Store.edge_waitEdges.mpr (.goal hneeds))
    · exact .inl (Store.edge_waitEdges.mpr (.member hview hgoal))

theorem touched_insertDependency {other : TaskId} (hmember : s₀.SubmittedMember p t) :
    Txn.Moves (Keeping (Touched s₀ p named)) (insertDependency t other) := by
  refine ⟨fun s u s' h hs => ?_⟩
  simp only [insertDependency, Txn.read_bind, domain_bind, readTask_bind, Txn.when_ok,
    Txn.write_bind, Task.checkAcyclic_ok] at h
  obtain ⟨_, _, _, _, _, _, _, _, _, hcycle, hwrite⟩ := h
  rcases hwrite with ⟨_, rest⟩ | ⟨_, rfl⟩
  · exact (Txn.Moves.of_ok (R := Keeping (Touched s₀ p named)) rest) (hs.addDependency hmember hcycle)
  · exact hs

/-! ## Actions -/

/-- What the check of an action has found of the queue. -/
structure Allowed (s₀ : Store) (p : ProposalId) (action : PlanReviewAction) : Prop where
  target : s₀.SubmittedMember p action.taskId
  lower : ∀ t priority, action = .lowerPriority t priority →
    ∀ row, s₀.tasks.get? t = some row → priority.asI64 ≤ row.task.priority.asI64

/-- The members of a proposal are the tasks that name it. -/
theorem Store.mem_members_iff {s : Store} {p : ProposalId} {t : TaskId} :
    t ∈ s.members p ↔ s.proposalOf t = some p := by
  refine ⟨fun h => ?_, Store.mem_members⟩
  rw [members, mem_sorted] at h
  obtain ⟨⟨t', row⟩, hmem, rfl⟩ := List.mem_map.mp h
  obtain ⟨hrow, hof⟩ := Table.mem_select.mp hmem
  rw [proposalOf, hrow]
  exact of_decide_eq_true hof

theorem checkAction_ok {members : List TaskId} {action : PlanReviewAction} {u : Unit}
    (h : checkAction members action s = .ok (u, s')) :
    s' = s ∧ (members = s.members p → Allowed s p action) := by
  simp only [checkAction, Txn.ensure_bind, readTask_bind] at h
  obtain ⟨hmember, row, hrow, hsubmitted, h⟩ := h
  have htarget : members = s.members p → s.SubmittedMember p action.taskId := by
    rintro rfl
    refine ⟨Store.mem_members_iff.mp hmember, ?_⟩
    rw [Store.taskStatus_of_get hrow, hsubmitted]
  cases action with
  | addDependency t other =>
      simp only [domain_bind, readTask_bind, Txn.pure_ok] at h
      obtain ⟨_, _, _, _, _, rfl⟩ := h
      exact ⟨rfl, fun hm => ⟨htarget hm, fun _ _ heq => PlanReviewAction.noConfusion heq⟩⟩
  | lowerPriority t priority =>
      obtain ⟨hlower, rfl⟩ := Txn.ensure_ok.mp h
      refine ⟨rfl, fun hm => ⟨htarget hm, fun t' priority' heq row' hrow' => ?_⟩⟩
      cases heq
      cases hrow.symm.trans hrow'
      exact Nat.le_of_lt hlower
  | cancelDuplicate t original =>
      simp only [Txn.ensure_bind, readTask_bind, Txn.ensure_ok] at h
      obtain ⟨_, _, _, _, rfl⟩ := h
      exact ⟨rfl, fun hm => ⟨htarget hm, fun _ _ heq => PlanReviewAction.noConfusion heq⟩⟩

theorem touched_applyAction {action : PlanReviewAction} (h : Allowed s₀ p action) :
    Txn.Moves (Keeping (Touched s₀ p named)) (applyAction action) := by
  obtain ⟨htarget, hlower⟩ := h
  cases action with
  | addDependency t other => exact touched_insertDependency htarget
  | lowerPriority t priority => exact touched_lowerPriority htarget (hlower t priority rfl)
  | cancelDuplicate t original =>
      have hcancel : Txn.Moves (Keeping (Touched s₀ p named)) (transitionTask t .cancel) :=
        touched_transition (by decide) htarget
      unfold applyAction
      infer_instance

/-- The loop over the originals only checks. -/
theorem checkOriginals_ok {actions : List PlanReviewAction} {u : Unit}
    (h : checkOriginals actions s = .ok (u, s')) : s' = s := by
  have hkeeps : Txn.Keeps (fun s : Store => s) (checkOriginals actions) := by
    unfold checkOriginals
    refine Txn.Moves.forM_of_mem fun action _ => ?_
    cases action <;> infer_instance
  exact hkeeps.of_ok h

/-! ## The proposal -/

/-- Saving a proposal the queue had. -/
theorem Touched.saveProposal (h : Touched s₀ p named s)
    (hknown : s₀.proposals.get? p ≠ none) {proposal : Proposal} (hid : proposal.id = p) {u : Unit}
    (hsave : saveProposal proposal s = .ok (u, s')) : Touched s₀ p named s' := by
  obtain ⟨hstatus, hof, _⟩ := saveProposal_ok hsave
  rw [Dagq.saveProposal, Txn.write_ok] at hsave
  subst hsave
  have hjoined : ∀ {t q}, Joined s₀ s t q → q ≠ p := by
    intro t q hjoins hq
    exact hknown (hq ▸ (h.joined hjoins).1)
  refine { h with
    joined := fun {t q} hjoins => ?_, proposals := fun {q row} hq hrow => ?_, kept := fun {q} hq => ?_ }
  · obtain ⟨hnew, hrevising, hrest⟩ := h.joined hjoins
    refine ⟨hnew, ?_, hrest⟩
    rw [hstatus, if_neg (hid ▸ hjoined hjoins)]
    exact hrevising
  · rw [Table.get?_upsert, if_neg (hid ▸ hq)]
    exact h.proposals hq hrow
  · rw [Table.get?_upsert] at hq
    split_ifs at hq
    exact h.kept hq

/-- Rewriting the plan-review columns of the proposal. -/
theorem touched_updateReview {f : ProposalRow → ProposalRow} (hf : ∀ row, (f row).status = row.status) :
    Txn.Moves (Keeping (Touched s₀ p named)) (updateReview p f) := by
  refine .of_write fun s h => { h with
    joined := fun {t q} hjoins => ?_, proposals := fun {q row} hq hrow => ?_, kept := fun {q} hq => ?_ }
  · obtain ⟨hnew, hrevising, hrest⟩ := h.joined hjoins
    exact ⟨hnew, (Store.proposalStatus_modify hf q).trans hrevising, hrest⟩
  · rw [Table.get?_modify, if_neg hq]
    exact h.proposals hq hrow
  · rw [Table.get?_modify] at hq
    split_ifs at hq with heq
    · exact h.kept (heq ▸ Option.map_eq_none_iff.mp hq)
    · exact h.kept hq

/-- A task of the proposal that waits for plan review is moved on; any other stays. -/
theorem touched_moveOn {m : Tx Unit} (hmember : s₀.proposalOf t = some p)
    (hm : s₀.SubmittedMember p t → Txn.Moves (Keeping (Touched s₀ p named)) m) :
    Txn.Moves (Keeping (Touched s₀ p named)) (do
      let row ← readTask t
      Txn.when (row.task.status = .submitted) m) := by
  refine ⟨fun s u s' h hs => ?_⟩
  rw [readTask_bind] at h
  obtain ⟨row, hrow, h⟩ := h
  rcases Txn.when_ok.mp h with ⟨hsubmitted, h⟩ | ⟨_, rfl⟩
  · have hwaits : s.taskStatus t = some .submitted := by
      rw [Store.taskStatus_of_get hrow, hsubmitted]
    exact (hm (hs.submittedMember hmember hwaits)).of_ok h hs
  · exact hs

theorem touched_returnToDraft (hmember : s₀.proposalOf t = some p) :
    Txn.Moves (Keeping (Touched s₀ p named)) (returnToDraft t) := by
  refine touched_moveOn hmember fun htarget => ?_
  have hdraft : Txn.Moves (Keeping (Touched s₀ p named)) (transitionTask t .draft) :=
    touched_transition (by decide) htarget
  infer_instance

theorem touched_approveTask {id : ProposalId} (hmember : s₀.proposalOf t = some p) :
    Txn.Moves (Keeping (Touched s₀ p named)) (approveTask id t) := by
  refine touched_moveOn hmember fun htarget => ?_
  have hdraft : Txn.Moves (Keeping (Touched s₀ p named)) (transitionTask t .draft) :=
    touched_transition (by decide) htarget
  have happrove : Txn.Moves (Keeping (Touched s₀ p named)) (transitionTask t .approve) :=
    touched_transition (by decide) htarget
  infer_instance

/-- The members read later are members from the start. -/
theorem Touched.member (h : Touched s₀ p named s) (hknown : s₀.proposals.get? p ≠ none)
    (ht : t ∈ s.members p) : s₀.proposalOf t = some p := by
  by_contra hnot
  exact hknown (h.joined ⟨Store.mem_members_iff.mp ht, hnot⟩).1

/-- The proposal goes on by a command, and its members with it. -/
theorem touched_command {command : Proposal → Except DomainError Proposal}
    {rest : Proposal → Tx Unit} (hknown : s₀.proposals.get? p ≠ none)
    (hcommand : ∀ q q', command q = .ok q' → q'.id = q.id ∧ q'.taskIds = q.taskIds)
    (hrest : ∀ q', (∀ t ∈ q'.taskIds, s₀.proposalOf t = some p) →
      Txn.Moves (Keeping (Touched s₀ p named)) (rest q')) :
    Txn.Moves (Keeping (Touched s₀ p named)) (do
      let q ← readProposal p
      let q' ← Tx.domain (command q)
      saveProposal q'
      rest q') := by
  refine ⟨fun s u s' h hs => ?_⟩
  obtain ⟨q, q', s₁, hq, hq', hsave, h⟩ := command_ok h
  obtain ⟨hid, _, htasks⟩ := Store.proposal?_status hq
  obtain ⟨hid', htasks'⟩ := hcommand q q' hq'
  have hmembers : ∀ t ∈ q'.taskIds, s₀.proposalOf t = some p := by
    intro t ht
    rw [htasks', htasks] at ht
    exact hs.member hknown ht
  exact (hrest q' hmembers).of_ok h (hs.saveProposal hknown (hid'.trans hid) hsave)

instance touched_readyGoal {goalId : GoalId} :
    Txn.Moves (Keeping (Touched s₀ p named)) (readyGoal goalId) := by
  unfold readyGoal saveGoal
  infer_instance

theorem touched_approve (hknown : s₀.proposals.get? p ≠ none) :
    Txn.Moves (Keeping (Touched s₀ p named)) (approve p) := by
  refine touched_command hknown (fun _ _ => Proposal.accept_members) fun q' hmembers => ?_
  have htasks : Txn.Moves (Keeping (Touched s₀ p named)) (q'.taskIds.forM (approveTask p)) :=
    Txn.Moves.forM_of_mem fun t ht => touched_approveTask (hmembers t ht)
  infer_instance

theorem Proposal.sendBack_members {q q' : Proposal} (h : q.sendBack = .ok q') :
    q'.id = q.id ∧ q'.taskIds = q.taskIds := by
  simp only [sendBack, except_bind_ok, except_pure_ok] at h
  obtain ⟨_, _, rfl⟩ := h
  exact ⟨rfl, rfl⟩

theorem touched_sendBack (hknown : s₀.proposals.get? p ≠ none) :
    Txn.Moves (Keeping (Touched s₀ p named)) (sendBack p) :=
  touched_command hknown (fun _ _ => Proposal.sendBack_members) fun _ hmembers =>
    Txn.Moves.forM_of_mem fun t ht => touched_returnToDraft (hmembers t ht)

/-! ## Tasks that are reopened -/

/-- A ready task of no such proposal is put into a new one. -/
theorem Touched.reopen (h : Touched s₀ p named s) {row : TaskRow} {q : ProposalId}
    {proposals : Table ProposalId ProposalRow} {events : List Event}
    (hnamed : t ∈ named) (hother : s₀.proposalOf t ≠ some p) (hrow : s.tasks.get? t = some row)
    (hready : row.task.status = .ready) (hfresh : s.proposals.get? q = none)
    (hproposals : ∀ q', q' ≠ q → proposals.get? q' = s.proposals.get? q')
    (hnew : (proposals.get? q).map ProposalRow.status = some .revising) :
    Touched s₀ p named { s with
      tasks := s.tasks.modify t fun row' => { row' with
        task := { row.task with status := .submitted }, proposalId := some q }
      proposals := proposals, events := events } := by
  have hgone : s₀.proposals.get? q = none := h.kept hfresh
  -- The row is as it was: only submitted members and reopened tasks changed, and those are not ready.
  have hrow₀ : s₀.tasks.get? t = some row := by
    rcases (h.task t).cases with hsame | ⟨row', _, _, hrow', hof, _⟩ | ⟨row', q', _, _, _, hnow⟩
    · rw [← hsame, hrow]
    · rw [Store.proposalOf, hrow'] at hother
      exact absurd hof hother
    · rw [hrow] at hnow
      cases hnow
      cases hready
  have hget : ∀ t', (s.tasks.modify t fun row' => { row' with
      task := { row.task with status := .submitted }, proposalId := some q }).get? t' =
      if t' = t then some { row with task := { row.task with status := .submitted }, proposalId := some q }
      else s.tasks.get? t' := Table.get?_modify_of_get hrow
  have hwas : row.proposalId ≠ some p := by
    rw [Store.proposalOf, hrow₀] at hother
    exact hother
  have hjoin : ∀ {t' q'}, Joined s₀ { s with
      tasks := s.tasks.modify t fun row' => { row' with
        task := { row.task with status := .submitted }, proposalId := some q }
      proposals := proposals, events := events } t' q' →
      (t' = t ∧ q' = q) ∨ (t' ≠ t ∧ q' ≠ q ∧ Joined s₀ s t' q') := by
    intro t' q' hjoins
    obtain ⟨hnow, hbefore⟩ := hjoins
    rw [Store.proposalOf, hget] at hnow
    split_ifs at hnow with ht
    · exact .inl ⟨ht, (Option.some.inj hnow).symm⟩
    · have hjoins : Joined s₀ s t' q' := ⟨hnow, hbefore⟩
      refine .inr ⟨ht, fun hq => ?_, hjoins⟩
      have hthere := (h.joined hjoins).2.1
      rw [Store.proposalStatus, hq, hfresh] at hthere
      cases hthere
  refine ⟨fun t' => ?_, fun {t' q'} hjoins => ?_, fun {q' row'} hq' hrow' => ?_, fun {q'} hq' => ?_,
    h.dependencies, h.goalDependencies, h.runs, h.leases,
    fun hacyclic => (h.acyclic hacyclic).mono (edges_of_goals ?_ rfl rfl)⟩
  · rw [hget]
    split_ifs with ht
    · rw [ht, hrow₀]
      exact .reopened hwas hready
    · exact h.task t'
  · rcases hjoin hjoins with ⟨rfl, rfl⟩ | ⟨ht, hq, hold⟩
    · refine ⟨hgone, hnew, hnamed, fun t'' hjoins'' => ?_⟩
      rcases hjoin hjoins'' with ⟨ht, _⟩ | ⟨_, hne, _⟩
      · exact ht
      · exact absurd rfl hne
    · obtain ⟨hnone, hrevising, hwas', halone⟩ := h.joined hold
      refine ⟨hnone, ?_, hwas', fun t'' hjoins'' => ?_⟩
      · rw [Store.proposalStatus, hproposals q' hq]
        exact hrevising
      · rcases hjoin hjoins'' with ⟨_, hq'⟩ | ⟨_, _, hold''⟩
        · exact absurd hq' hq
        · exact halone t'' hold''
  · have hthere := h.proposals hq' hrow'
    have hne : q' ≠ q := by
      intro heq
      rw [heq, hfresh] at hthere
      cases hthere
    show proposals.get? q' = _
    rw [hproposals q' hne, hthere]
  · by_cases hne : q' = q
    · exact hne ▸ hgone
    · exact h.kept ((hproposals q' hne).symm.trans hq')
  · intro t' row' hrow'
    rw [hget] at hrow'
    split_ifs at hrow' with ht
    · cases hrow'
      exact ⟨row, ht ▸ hrow, rfl⟩
    · exact ⟨row', hrow', rfl⟩

theorem touched_reopen {now : Seconds} {item : Reopen} (hnamed : item.taskId ∈ named)
    (hother : s₀.proposalOf item.taskId ≠ some p) :
    Txn.Moves (Keeping (Touched s₀ p named)) (reopen p now item) := by
  refine ⟨fun s u s' h hs => ?_⟩
  simp only [Dagq.reopen, Txn.read_bind] at h
  rcases Txn.when_ok.mp h with ⟨⟨hany, _⟩, h⟩ | ⟨_, rfl⟩
  · obtain ⟨row, hrow, hready⟩ := (Option.any_eq_true _ _).mp hany
    simp only [reopenTask, Txn.read_bind, domain_bind] at h
    obtain ⟨reopened, hreopen, h⟩ := h
    obtain ⟨hid, hrevising⟩ := Proposal.reopen_ok hreopen
    obtain ⟨_, s₁, hsave, h⟩ := Txn.bind_ok.mp h
    obtain ⟨_, s₂, htransition, h⟩ := Txn.bind_ok.mp h
    rw [Dagq.saveProposal, Txn.write_ok] at hsave
    subst hsave
    obtain ⟨row', status, _, hrow', hstatus, events, rfl⟩ := transitionTask_ok (by decide) htransition
    cases hrow.symm.trans hrow'
    -- A ready task is reopened to be submitted.
    have hsubmitted : status = .submitted := by
      rw [of_decide_eq_true hready] at hstatus
      cases hstatus
      rfl
    simp only [joinProposal, awaitDelivery, updateReview, Txn.write_bind, record_ok] at h
    subst h hsubmitted
    rw [Table.modify_modify, hid]
    refine hs.reopen hnamed hother hrow (of_decide_eq_true hready) (Table.nextId_fresh _)
      (fun q hq => ?_) ?_
    · rw [Table.get?_modify, if_neg hq, Table.get?_upsert, if_neg hq]
    · rw [Table.get?_modify, if_pos rfl, Table.get?_upsert, if_pos rfl, Table.nextId_fresh]
      exact congrArg some hrevising
  · exact hs

/-! ## The verdict -/

/-- What the checks of a verdict have found of the queue. -/
theorem checkVerdict_ok {verdict : PlanReviewApply} {u : Unit}
    (h : checkVerdict (s.members p) verdict s = .ok (u, s')) : s' = s ∧
      (verdict.decision = .pass → ∀ action ∈ verdict.verdict.actions, Allowed s p action) ∧
      ∀ item ∈ verdict.verdict.reopen, s.proposalOf item.taskId ≠ some p := by
  obtain ⟨_, s₁, hactions, hreopen⟩ := Txn.bind_ok.mp h
  have hchecked : s₁ = s ∧
      (verdict.decision = .pass → ∀ action ∈ verdict.verdict.actions, Allowed s p action) := by
    rcases Txn.when_ok.mp hactions with ⟨_, hchecks⟩ | ⟨hnot, rfl⟩
    · obtain ⟨_, s₂, hloop, horiginals⟩ := Txn.bind_ok.mp hchecks
      obtain ⟨rfl, hall⟩ := Txn.forM_check (fun _ _ _ _ => checkAction_ok (p := p)) hloop
      exact ⟨checkOriginals_ok horiginals, fun _ action hmem => hall action hmem rfl⟩
    · exact ⟨rfl, fun hpass => absurd hpass hnot⟩
  obtain ⟨rfl, hallowed⟩ := hchecked
  have hround : ∀ (item : Reopen) s u s', Tx.ensure (item.taskId ∉ s₁.members p)
      s!"task {item.taskId} is in the proposal under review, not a ready task to reopen" s =
        .ok (u, s') → s' = s ∧ item.taskId ∉ s₁.members p := by
    intro item s u s' h
    exact ⟨(Txn.ensure_ok.mp h).2.symm, (Txn.ensure_ok.mp h).1⟩
  obtain ⟨rfl, hothers⟩ := Txn.forM_check hround hreopen
  exact ⟨rfl, hallowed, fun item hmem hof => hothers item hmem (Store.mem_members hof)⟩

theorem touched_applyDecision {job : PlanReviewJob} {verdict : PlanReviewApply} {now : Seconds}
    (hknown : s₀.proposals.get? job.proposalId ≠ none)
    (hallowed : verdict.decision = .pass →
      ∀ action ∈ verdict.verdict.actions, Allowed s₀ job.proposalId action) :
    Txn.Moves (Keeping (Touched s₀ job.proposalId named)) (applyDecision job verdict now) := by
  unfold applyDecision
  cases hdecision : verdict.decision with
  | pass =>
      have hactions : Txn.Moves (Keeping (Touched s₀ job.proposalId named))
          (verdict.verdict.actions.forM applyAction) :=
        Txn.Moves.forM_of_mem fun action hmem => touched_applyAction (hallowed hdecision action hmem)
      have happrove : Txn.Moves (Keeping (Touched s₀ job.proposalId named))
          (approve job.proposalId) := touched_approve hknown
      infer_instance
  | revise =>
      have hback : Txn.Moves (Keeping (Touched s₀ job.proposalId named))
          (sendBack job.proposalId) := touched_sendBack hknown
      have hdelivery : Txn.Moves (Keeping (Touched s₀ job.proposalId named))
          (awaitDelivery job.proposalId verdict.reviseReasons now) :=
        touched_updateReview fun _ => rfl
      infer_instance
  | concern =>
      have hheld : Txn.Moves (Keeping (Touched s₀ job.proposalId named))
          (setHold job.proposalId (some .concern)) := touched_updateReview fun _ => rfl
      unfold holdForConcern insertAsk
      infer_instance

/-- The tasks a verdict names to be reopened. -/
def PlanReviewApply.reopens (verdict : PlanReviewApply) : List TaskId :=
  verdict.verdict.reopen.map (·.taskId)

theorem touched_applyVerdict {job : PlanReviewJob} {verdict : PlanReviewApply} {now : Seconds}
    {asked : Option (AskId × Bool)} (hknown : s.proposals.get? job.proposalId ≠ none)
    (h : applyVerdict job verdict now s = .ok (asked, s')) :
    Touched s job.proposalId verdict.reopens s' := by
  simp only [applyVerdict, Txn.read_bind] at h
  obtain ⟨_, s₁, hcheck, hrest⟩ := Txn.bind_ok.mp h
  obtain ⟨rfl, hallowed, hothers⟩ := checkVerdict_ok hcheck
  have hdecision : Txn.Moves (Keeping (Touched s₁ job.proposalId verdict.reopens))
      (applyDecision job verdict now) := touched_applyDecision hknown hallowed
  have hreopen : Txn.Moves (Keeping (Touched s₁ job.proposalId verdict.reopens))
      (verdict.verdict.reopen.forM (reopen job.proposalId now)) :=
    Txn.Moves.forM_of_mem fun item hmem =>
      touched_reopen (List.mem_map_of_mem hmem) (hothers item hmem)
  have hall : Txn.Moves (Keeping (Touched s₁ job.proposalId verdict.reopens)) (do
      let asked ← applyDecision job verdict now
      verdict.verdict.reopen.forM (reopen job.proposalId now)
      finishRow job.id now (.decided verdict.decision) (some verdict.verdict.reasons)
      taskNotice job.anchor (.planReviewFinished job.proposalId job.id verdict.decision
        (asked.map Prod.fst))
      return asked) := by
    infer_instance
  exact hall.of_ok hrest (.refl s₁ job.proposalId _)

/-- The end of a plan review, when it is accepted. -/
theorem touched_finishPlanReview {job : PlanReviewJob} {token : Token} {verdict : PlanReviewApply}
    {now : Seconds} {asked : Option (AskId × Bool)}
    (h : finishPlanReview job token verdict now s = .ok (asked, s')) :
    Touched s job.proposalId verdict.reopens s' := by
  have hrow {outcome : PlanReviewOutcome} {reasons : Option (List String)} :
      Txn.Moves (Keeping (Touched s job.proposalId verdict.reopens))
        (finishRow job.id now outcome reasons) := by
    infer_instance
  simp only [finishPlanReview, Txn.read_bind] at h
  split_ifs at h with hrunning hreviewable hedited
  · obtain ⟨_, rfl⟩ := Txn.pure_ok.mp h
    exact .refl s job.proposalId _
  · obtain ⟨_, s₁, hfinish, hpure⟩ := Txn.bind_ok.mp h
    obtain ⟨_, rfl⟩ := Txn.pure_ok.mp hpure
    exact hrow.of_ok hfinish (.refl s job.proposalId _)
  · refine touched_applyVerdict (fun hnone => ?_) h
    rw [Store.reviewable, hnone] at hreviewable
    exact hreviewable rfl
  · have hdiscard : Txn.Moves (Keeping (Touched s job.proposalId verdict.reopens))
        (discardVerdict job verdict (s.editedDuring job) now) := by
      infer_instance
    exact hdiscard.of_ok h (.refl s job.proposalId _)

end Frame

/-! ## The end of a plan review -/

/-- From `s` to `s'` only the proposal `p` was touched: its submitted tasks, and ready tasks named that now
wait in new proposals of their own.  No task that is claimed or over changed, no task of the proposal
rose, and nobody waits for itself who did not. -/
structure TouchesOnly (p : ProposalId) (named : List TaskId) (s s' : Store) : Prop where
  touched : Touched s p named s'
  settled : ∀ t row, s.tasks.get? t = some row →
    row.task.status = .inProgress ∨ row.task.status = .completed ∨ row.task.status = .canceled →
      s'.tasks.get? t = some row ∧ ∀ other, (t, other) ∈ s'.taskDependencies ↔
        (t, other) ∈ s.taskDependencies
  priority : ∀ t row row', s.tasks.get? t = some row → s'.tasks.get? t = some row' →
    row'.task.priority.asI64 ≤ row.task.priority.asI64
  acyclic : Graph.Acyclic (Graph.Edge s.waitEdges) → Graph.Acyclic (Graph.Edge s'.waitEdges)

theorem Touched.touchesOnly {p : ProposalId} {named : List TaskId} {s s' : Store}
    (h : Touched s p named s') : TouchesOnly p named s s' := by
  refine ⟨h, fun t row hrow hover => ?_, fun t row row' hrow hrow' => ?_, h.acyclic⟩
  · -- What has ended or runs is no submitted member, so nothing of it may change.
    have hnot : ¬s.SubmittedMember p t := by
      rintro ⟨_, hsubmitted⟩
      rw [Store.taskStatus_of_get hrow] at hsubmitted
      rw [Option.some.inj hsubmitted] at hover
      simp at hover
    constructor
    · rcases (h.task t).cases with hsame | ⟨row₀, _, _, hrow₀, _, hsubmitted, _⟩ |
        ⟨row₀, _, hrow₀, _, hready, _⟩
      · exact hsame.trans hrow
      · cases hrow.symm.trans hrow₀
        rw [hsubmitted] at hover
        simp at hover
      · cases hrow.symm.trans hrow₀
        rw [hready] at hover
        simp at hover
    · intro other
      obtain ⟨added, hadded, hmembers⟩ := h.dependencies
      rw [hadded, List.mem_append]
      exact ⟨fun hmem => hmem.resolve_right fun hnew => hnot (hmembers _ hnew), .inl⟩
  · rcases (h.task t).cases with hsame | ⟨row₀, _, _, hrow₀, _, _, hle, hnow⟩ |
      ⟨row₀, _, hrow₀, _, _, hnow⟩
    · cases (hsame.trans hrow).symm.trans hrow'
      exact Nat.le_refl _
    · cases hrow.symm.trans hrow₀
      cases hnow.symm.trans hrow'
      exact hle
    · cases hrow.symm.trans hrow₀
      cases hnow.symm.trans hrow'
      exact Nat.le_refl _

/-- The end of a plan review is refused and leaves the queue as it was, or touches its proposal only. -/
theorem plan_review_touches_proposal (s : Store) (job : PlanReviewJob) (token : Token)
    (verdict : PlanReviewApply) (now : Seconds) :
    ((∃ e, finishPlanReview job token verdict now s = .error e) ∧
        (finishPlanReview job token verdict now).commit s = s) ∨
      ∃ asked s', finishPlanReview job token verdict now s = .ok (asked, s') ∧
        (finishPlanReview job token verdict now).commit s = s' ∧
        TouchesOnly job.proposalId verdict.reopens s s' := by
  cases h : finishPlanReview job token verdict now s with
  | error e => exact .inl ⟨⟨e, rfl⟩, Txn.commit_of_error h⟩
  | ok r =>
      obtain ⟨asked, s'⟩ := r
      exact .inr ⟨asked, s', rfl, Txn.commit_of_ok h, (touched_finishPlanReview h).touchesOnly⟩

end Dagq
