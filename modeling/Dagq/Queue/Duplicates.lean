/-
# Dagq.Queue.Duplicates -- which task was canceled as a duplicate of which.

The record is the event of the cancel, and a canceled task never moves again, so a record once made
stays as it is.  A cancel as a duplicate points from a task with no record to another one with none:
following the records always ends.  It may point from the original of an earlier duplicate, though, and
then they chain.  Plan review cancels a duplicate with an event of its own, which the readers of the
records do not look at.
-/
import Dagq.Queue.Waiting

namespace Dagq

open Lib

set_option synthInstance.maxSize 100000

/-! ## Reading the records -/

namespace Store

variable {s : Store}

/-- The reader looks at the log only. -/
theorem duplicateTarget_congr {s' : Store} (h : s'.events = s.events) (t : TaskId) :
    s'.duplicateTarget t = s.duplicateTarget t := by
  simp only [duplicateTarget, taskEventsOf, h]

/-- One more event on the log. -/
theorem duplicateTarget_append {s' : Store} {event : Event} (h : s'.events = s.events ++ [event])
    (t : TaskId) :
    s'.duplicateTarget t =
      match event.body with
      | .notice (.taskStatusChanged _ target duplicateOf) =>
          if event.taskId = some t then (if target = .canceled then duplicateOf else none)
          else s.duplicateTarget t
      | _ => s.duplicateTarget t := by
  obtain ⟨taskId, goalId, runId, body⟩ := event
  -- The target is read from the last event of the task itself.
  by_cases ht : taskId = some t
  · have hevents : s'.taskEventsOf t = s.taskEventsOf t ++ [body] := by
      simp [taskEventsOf, h, ht]
    simp only [duplicateTarget, hevents, List.reverse_append]
    cases body with
    | notice said =>
        cases said with
        | taskStatusChanged _ target _ => cases target <;> simp [ht]
        | _ => rfl
    | _ => rfl
  · have hevents : s'.taskEventsOf t = s.taskEventsOf t := by
      simp [taskEventsOf, h, ht]
    simp only [duplicateTarget, hevents]
    cases body with
    | notice said =>
        cases said with
        | taskStatusChanged _ target _ => simp [ht]
        | _ => rfl
    | _ => rfl

end Store

/-- Whether the notice records a task as the duplicate of another. -/
@[reducible] def Notice.declares : Notice → Bool
  | .taskStatusChanged _ _ (some _) => true
  | _ => false

@[reducible] def EventBody.declares : EventBody → Bool
  | .notice said => said.declares
  | _ => false

theorem Store.duplicateTarget_of_append {s s' : Store} {event : Event}
    (h : s'.events = s.events ++ [event]) (hbody : event.body.declares = false) {t k : TaskId}
    (ht : s'.duplicateTarget t = some k) : s.duplicateTarget t = some k := by
  rw [duplicateTarget_append h] at ht
  split at ht
  · rename_i target duplicateOf hevent
    cases duplicateOf with
    | none =>
        -- A later status takes the record away; it never makes one.
        split_ifs at ht
        exact ht
    | some k' => simp [hevent] at hbody
  · exact ht

theorem Store.duplicateTarget_of_appends {s s' : Store} {es : List Event}
    (h : s'.events = s.events ++ es) (hes : ∀ e ∈ es, e.body.declares = false) {t k : TaskId}
    (ht : s'.duplicateTarget t = some k) : s.duplicateTarget t = some k := by
  induction es generalizing s with
  | nil =>
      rw [List.append_nil] at h
      rwa [duplicateTarget_congr h] at ht
  | cons e es ih =>
      obtain ⟨he, hes⟩ := List.forall_mem_cons.mp hes
      have hnext : s'.events = (s.events ++ [e]) ++ es := by rw [h, List.append_assoc]; rfl
      exact duplicateTarget_of_append rfl he
        (ih (s := { s with events := s.events ++ [e] }) hnext hes)

theorem EventBody.declares_of_quiet {body : EventBody} (h : body.tells = false) :
    body.declares = false := by
  cases body with
  | notice said =>
      cases said with
      | taskStatusChanged => cases h
      | _ => rfl
  | _ => rfl

/-! ## Operations that declare no duplicate -/

/-- No record was made, and canceled tasks stay canceled. -/
structure DeclaresNone (s s' : Store) : Prop where
  canceled : ∀ {t}, s.taskStatus t = some .canceled → s'.taskStatus t = some .canceled
  records : ∀ {t k}, s'.duplicateTarget t = some k → s.duplicateTarget t = some k

instance : IsPreorder Store DeclaresNone where
  refl _ := ⟨fun h => h, fun h => h⟩
  trans _ _ _ h₁ h₂ :=
    ⟨fun h => h₂.canceled (h₁.canceled h), fun h => h₁.records (h₂.records h)⟩

instance : Aloof DeclaresNone where
  of_aside {s s'} h := by
    refine ⟨fun {t} ht => ?_, fun {t k} ht => ?_⟩
    · rw [Store.taskStatus, h.tasks]
      exact ht
    · obtain ⟨es, hes, hquiet⟩ := h.events
      exact Store.duplicateTarget_of_appends hes (fun e he => EventBody.declares_of_quiet (hquiet e he))
        ht

instance : GoalBlind DeclaresNone := ⟨⟨fun h => h, fun h => h⟩⟩

/-! ### Writes -/

/-- Everything but the tasks and the log may change. -/
instance declaresNone_write {goals : Store → Table GoalId GoalRow}
    {proposals : Store → Table ProposalId ProposalRow}
    {planReviews : Store → Table PlanReviewId PlanReviewRow} {asks : Store → Table AskId Ask} :
    Txn.Moves DeclaresNone (Txn.write fun s => { s with
      goals := goals s, proposals := proposals s, planReviews := planReviews s
      asks := asks s } : Tx Unit) :=
  .of_write fun _ => ⟨fun h => h, fun h => h⟩

instance declaresNone_record {event : Event} [h : Off event.body.declares] :
    Txn.Moves DeclaresNone (record event) :=
  .of_write fun _ => ⟨fun h => h, fun ht => Store.duplicateTarget_of_append rfl h.eq_false ht⟩

instance : StatusBound DeclaresNone where
  of_modify {s id f} hf := by
    refine ⟨fun {t} h => ?_, fun h => h⟩
    rw [Store.taskStatus_modify]
    split_ifs with ht
    · rw [ht, Store.taskStatus] at h
      obtain ⟨row, hrow, hstatus⟩ := Option.map_eq_some_iff.mp h
      rw [hrow, Option.map_some, (hf row hrow).1, hstatus]
    · exact h

/-- The proposal of a task. -/
instance declaresNone_joinProposal {id : TaskId} {proposalId : ProposalId} :
    Txn.Moves DeclaresNone (joinProposal id proposalId) := by
  refine .of_write fun s => ⟨fun {t} h => ?_, fun h => h⟩
  rw [Store.taskStatus_modify]
  split_ifs with ht
  · rw [ht] at h
    exact h
  · exact h

/-- A task saved over `row`, which was not canceled, or stays so. -/
theorem declaresNone_saveTask {s : Store} {id : TaskId} {row : TaskRow} {task : Task}
    (hrow : s.tasks.get? id = some row)
    (hstatus : row.task.status = .canceled → task.status = .canceled) :
    DeclaresNone s { s with tasks := s.tasks.modify id fun row => { row with task := task } } := by
  refine ⟨fun {t} h => ?_, fun h => h⟩
  rw [Store.taskStatus_modify, hrow]
  split_ifs with ht
  · rw [ht, Store.taskStatus_of_get hrow] at h
    exact congrArg some (hstatus (by simpa using h))
  · exact h

/-! ### Tasks -/

instance declaresNone_insertTaskRow {new : NewTask} :
    Txn.Moves DeclaresNone (insertTaskRow new) := by
  refine ⟨fun s id s' h => ?_⟩
  simp only [insertTaskRow, Txn.read_bind, domain_bind] at h
  obtain ⟨task, _, h⟩ := h
  obtain ⟨_, s₁, hgoal, rest⟩ := Txn.bind_ok.mp h
  obtain rfl : s₁ = s := Txn.Moves.of_ok (R := fun s s' : Store => s' = s) hgoal
  refine trans_of DeclaresNone ?_ (Txn.Moves.of_ok (Txn.write_bind.mp rest))
  refine ⟨fun {t} ht => ?_, fun h => h⟩
  have hfresh : s₁.tasks.get? s₁.tasks.nextId = none := Table.nextId_fresh _
  rw [Store.taskStatus_push hfresh]
  split_ifs with hid
  · -- A canceled task is on record already.
    rw [hid, Store.taskStatus, hfresh] at ht
    cases ht
  · exact ht

/-- A transition leaves only tasks that are neither completed nor canceled. -/
instance declaresNone_applyTransition {taskId : TaskId} {action : TaskAction} :
    Txn.Moves DeclaresNone (applyTransition taskId action none) := by
  refine ⟨fun s task s' h => ?_⟩
  simp only [applyTransition, saveTask, Txn.read_bind, domain_bind, readTask_bind,
    Txn.write_bind] at h
  obtain ⟨row, hrow, task', htask, rest⟩ := h
  obtain ⟨status, hstatus, rfl⟩ := Task.transition_ok.mp htask
  refine trans_of DeclaresNone (declaresNone_saveTask hrow fun hcanceled => ?_)
    (Txn.Moves.of_ok rest)
  have hopen := (TaskStatus.transition_moved hstatus).source_open
  rw [hcanceled] at hopen
  cases hopen

theorem declaresNone_taskOp {op : TaskOp}
    (hop : ∀ taskId duplicateOf, op ≠ .cancelAsDuplicate taskId duplicateOf) :
    Txn.Moves DeclaresNone op.exec := by
  cases op with
  | cancelAsDuplicate taskId duplicateOf => exact absurd rfl (hop taskId duplicateOf)
  | _ => unfold TaskOp.exec; infer_instance

theorem declaresNone_askOp (op : AskOp) : Txn.Moves DeclaresNone op.exec := by
  cases op <;> unfold AskOp.exec <;> infer_instance

/-! ### Runs -/

instance declaresNone_claimTask {runId : RunId} {baseCommit : CommitSha} {order : List TaskId} :
    Txn.Moves DeclaresNone (claimTask runId baseCommit order) := by
  refine ⟨fun s taskId s' h => ?_⟩
  simp only [claimTask, saveTask, Txn.read_bind, Txn.found_bind, domain_bind, readTask_bind,
    Txn.write_bind] at h
  obtain ⟨t, _, row, hrow, task, htask, run, _, rest⟩ := h
  obtain ⟨hready, rfl⟩ := Task.claim_ok.mp htask
  refine trans_of DeclaresNone ?_ (Txn.Moves.of_ok rest)
  refine declaresNone_saveTask hrow fun hcanceled => ?_
  rw [hready] at hcanceled
  cases hcanceled

instance declaresNone_finishIntegration {id : RunId} {token : Token} {now : Seconds}
    {commit mainBefore : CommitSha} :
    Txn.Moves DeclaresNone (finishIntegration id token now commit mainBefore) := by
  refine ⟨fun s u s' h => ?_⟩
  obtain ⟨_, s₁, hrenew, h⟩ := Txn.bind_ok.mp h
  obtain ⟨run, s₂, happly, h⟩ := Txn.bind_ok.mp h
  obtain ⟨_, s₃, hdrop, h⟩ := Txn.bind_ok.mp h
  simp only [readTask_bind, Txn.ensure_bind, saveTask, Txn.write_bind] at h
  obtain ⟨row, hrow, hprogress, rest⟩ := h
  have hbefore : DeclaresNone s s₃ := trans_of DeclaresNone (Txn.Moves.of_ok hrenew)
    (trans_of DeclaresNone (Txn.Moves.of_ok happly) (Txn.Moves.of_ok hdrop))
  refine trans_of DeclaresNone hbefore (trans_of DeclaresNone ?_ (Txn.Moves.of_ok rest))
  refine declaresNone_saveTask hrow fun hcanceled => ?_
  rw [hprogress] at hcanceled
  cases hcanceled

instance declaresNone_triageAnswered {id : RunId} {taskId : TaskId} {ask : Option Ask}
    {answer reason : String} :
    Txn.Moves DeclaresNone (triageAnswered id taskId ask answer reason) := by
  unfold triageAnswered
  infer_instance

instance declaresNone_finishTriage {id : RunId} {token : Token} {now : Seconds}
    {action : TriageAction} {also : List RuntimeEvent} :
    Txn.Moves DeclaresNone (finishTriage id token now action also) := by
  unfold finishTriage
  infer_instance

instance declaresNone_decideTriage {id : RunId} {askId : AskId} {answer reason : String}
    {alive : Pid → Bool} {now : Seconds} :
    Txn.Moves DeclaresNone (decideTriage id askId answer reason alive now) := by
  unfold decideTriage
  infer_instance

theorem declaresNone_runOp (op : RunOp) : Txn.Moves DeclaresNone op.exec := by
  cases op <;> unfold RunOp.exec <;> infer_instance

/-! ### Proposals -/

instance declaresNone_applyAction {action : PlanReviewAction} :
    Txn.Moves DeclaresNone (applyAction action) := by
  cases action <;> (unfold applyAction; infer_instance)

instance declaresNone_applyDecision {job : PlanReviewJob} {apply : PlanReviewApply}
    {now : Seconds} : Txn.Moves DeclaresNone (applyDecision job apply now) := by
  unfold applyDecision
  split <;> infer_instance

instance declaresNone_applyAnswer {id : ProposalId} {now : Seconds} {answer : PlanAnswer} :
    Txn.Moves DeclaresNone (applyAnswer id now answer) := by
  cases answer <;> infer_instance

instance declaresNone_submitMembers {submission : Submission} {existing : Option Proposal}
    {now : Seconds} : Txn.Moves DeclaresNone (submitMembers submission existing now) := by
  unfold submitMembers
  infer_instance

theorem declaresNone_planOp (op : PlanOp) : Txn.Moves DeclaresNone op.exec := by
  cases op <;> unfold PlanOp.exec <;> infer_instance

/-! ## Cancels -/

/-- Whether the task can be canceled now. -/
def Store.cancelable (s : Store) (t : TaskId) : Bool :=
  (s.tasks.get? t).any fun row =>
    (row.task.status.transition .cancel (s.hasUnfinishedRun t)).isOk

/-- What a cancel does. -/
structure Canceled (s s' : Store) (t : TaskId) (duplicateOf : Option TaskId) : Prop where
  found : ∃ status, s.taskStatus t = some status ∧ status.isTerminal = false
  events : ∃ source, s'.events = s.events ++
    [{ taskId := some t, body := .notice (.taskStatusChanged source .canceled duplicateOf) }]
  status : ∀ x, s'.taskStatus x = if x = t then some .canceled else s.taskStatus x

theorem TaskStatus.transition_cancel {status status' : TaskStatus} {unfinishedRun : Bool}
    (h : status.transition .cancel unfinishedRun = .ok status') : status' = .canceled := by
  revert h
  cases status <;> cases unfinishedRun <;> simp [transition, eq_comm]

/-- A cancel is accepted of a cancelable task and of no other. -/
theorem cancel_accepts {s : Store} {t : TaskId} (duplicateOf : Option TaskId) :
    (applyTransition t .cancel duplicateOf).accepts s = s.cancelable t := by
  rw [Bool.eq_iff_iff, Txn.accepts_iff]
  simp only [applyTransition, saveTask, readTask_bind, Txn.read_bind, domain_bind, Txn.write_bind,
    Task.transition_ok, Store.cancelable, Option.any_eq_true]
  constructor
  · rintro ⟨_, row, hrow, _, ⟨status, hstatus, _⟩, _⟩
    exact ⟨row, hrow, by rw [hstatus]; rfl⟩
  · rintro ⟨row, hrow, hok⟩
    cases hstatus : row.task.status.transition .cancel (s.hasUnfinishedRun t) with
    | ok status => exact ⟨_, row, hrow, _, ⟨status, hstatus, rfl⟩, rfl⟩
    | error e => rw [hstatus] at hok; cases hok

theorem applyTransition_canceled {s s' : Store} {t : TaskId} {duplicateOf : Option TaskId}
    {task : Task} (h : applyTransition t .cancel duplicateOf s = .ok (task, s')) :
    Canceled s s' t duplicateOf := by
  simp only [applyTransition, saveTask, Txn.read_bind, domain_bind, readTask_bind,
    Txn.write_bind] at h
  obtain ⟨row, hrow, task', htask, h⟩ := h
  obtain ⟨status, hstatus, rfl⟩ := Task.transition_ok.mp htask
  obtain rfl := TaskStatus.transition_cancel hstatus
  cases h
  refine ⟨⟨_, Store.taskStatus_of_get hrow, (TaskStatus.transition_moved hstatus).source_open⟩,
    ⟨row.task.status, rfl⟩, fun x => ?_⟩
  rw [Store.taskStatus, Store.taskStatus, Table.get?_modify]
  split_ifs with hx
  · rw [hrow]
    rfl
  · rfl

/-- The records after a cancel: the one of its task, and every other as it was. -/
theorem Canceled.duplicateTarget {s s' : Store} {t : TaskId} {duplicateOf : Option TaskId}
    (h : Canceled s s' t duplicateOf) (x : TaskId) :
    s'.duplicateTarget x = if x = t then duplicateOf else s.duplicateTarget x := by
  obtain ⟨source, hevents⟩ := h.events
  rw [Store.duplicateTarget_append hevents]
  by_cases hx : x = t
  · simp [hx]
  · simp [hx, Ne.symm hx]

/-- Whether `t` can be canceled as a duplicate of `k` now: another task, on record and not canceled. -/
def Store.mayDuplicate (s : Store) (t k : TaskId) : Bool :=
  decide (t ≠ k) && (s.taskStatus k).any (· != .canceled) && s.cancelable t

theorem cancelAsDuplicate_ok {s s' : Store} {t k : TaskId} {task : Task} :
    cancelAsDuplicate t k s = .ok (task, s') ↔
      t ≠ k ∧ (s.taskStatus k).any (· != .canceled) = true ∧
        applyTransition t .cancel (some k) s = .ok (task, s') := by
  simp only [cancelAsDuplicate, Txn.ensure_bind, readTask_bind, Txn.read_bind]
  constructor
  · rintro ⟨hne, row, hrow, hcanceled, h⟩
    refine ⟨hne, ?_, h⟩
    rw [Store.taskStatus_of_get hrow, Option.any_some, bne_iff_ne]
    exact hcanceled
  · rintro ⟨hne, horiginal, h⟩
    obtain ⟨status, hstatus, hcanceled⟩ := (Option.any_eq_true _ _).mp horiginal
    obtain ⟨row, hrow, rfl⟩ := Option.map_eq_some_iff.mp hstatus
    exact ⟨hne, row, hrow, bne_iff_ne.mp hcanceled, h⟩

theorem cancelAsDuplicate_accepts {s : Store} {t k : TaskId} :
    (cancelAsDuplicate t k).accepts s = s.mayDuplicate t k := by
  rw [Bool.eq_iff_iff, Txn.accepts_iff, Prod.exists]
  simp only [cancelAsDuplicate_ok, Store.mayDuplicate, Bool.and_eq_true, decide_eq_true_eq,
    ← cancel_accepts (some k), Txn.accepts_iff, Prod.exists]
  constructor
  · rintro ⟨task, s', hne, horiginal, h⟩
    exact ⟨⟨hne, horiginal⟩, task, s', h⟩
  · rintro ⟨⟨hne, horiginal⟩, task, s', h⟩
    exact ⟨task, s', hne, horiginal, h⟩

/-! ## Following the records -/

namespace Store

/-- `t` is on record as a duplicate of `k`. -/
def DuplicateOf (s : Store) (t k : TaskId) : Prop := s.duplicateTarget t = some k

/-- The tasks on record as duplicates are canceled, and following the records always ends. -/
structure Recorded (s : Store) : Prop where
  canceled : ∀ {t k}, s.DuplicateOf t k → s.taskStatus t = some .canceled
  ends : Graph.Ends s.DuplicateOf

/-- No task on record as a duplicate is the original of another. -/
def Unchained (s : Store) : Prop := ∀ t k, s.DuplicateOf t k → s.duplicateTarget k = none

/-- A record is in the log. -/
theorem DuplicateOf.event {s : Store} {t k : TaskId} (h : s.DuplicateOf t k) :
    ∃ e ∈ s.events, e.taskId = some t ∧
      ∃ source, e.body = .notice (.taskStatusChanged source .canceled (some k)) := by
  rw [DuplicateOf, duplicateTarget] at h
  split at h
  · rename_i duplicateOf hlatest
    subst h
    obtain ⟨body, hbody, hstatus⟩ := List.exists_of_findSome?_eq_some hlatest
    rw [List.mem_reverse, taskEventsOf, List.mem_map] at hbody
    obtain ⟨e, he, rfl⟩ := hbody
    rw [List.mem_filter, decide_eq_true_eq] at he
    refine ⟨e, he.1, he.2, ?_⟩
    split at hstatus
    · rename_i source target duplicateOf heq
      rw [Option.some.injEq, Prod.mk.injEq] at hstatus
      exact ⟨source, by rw [heq, hstatus.1, hstatus.2]⟩
    · cases hstatus
  · cases h

theorem mem_duplicatesOf_of_canceled {s : Store} {t k : TaskId}
    (hcanceled : s.taskStatus t = some .canceled) (h : s.DuplicateOf t k) :
    t ∈ s.duplicatesOf k := by
  obtain ⟨e, he, htask, source, hbody⟩ := DuplicateOf.event h
  rw [duplicatesOf, List.mem_filter, decide_eq_true_eq, mem_sorted, List.mem_filterMap]
  refine ⟨⟨e, he, ?_⟩, h⟩
  simp [hbody, htask, hcanceled]

/-- What `show` lists as the duplicates of a task: the ones whose record names it. -/
theorem mem_duplicatesOf {s : Store} (hs : s.Recorded) {t k : TaskId} :
    t ∈ s.duplicatesOf k ↔ s.DuplicateOf t k := by
  constructor
  · intro h
    rw [duplicatesOf, List.mem_filter, decide_eq_true_eq] at h
    exact h.2
  · intro h
    exact mem_duplicatesOf_of_canceled (hs.canceled h) h

end Store

theorem DeclaresNone.recorded {s s' : Store} (h : DeclaresNone s s') (hs : s.Recorded) :
    s'.Recorded :=
  ⟨fun ht => h.canceled (hs.canceled (h.records ht)), hs.ends.mono fun _ _ ht => h.records ht⟩

theorem DeclaresNone.unchained {s s' : Store} (h : DeclaresNone s s') (hs : s.Unchained) :
    s'.Unchained := by
  intro t k ht
  by_contra hk
  obtain ⟨k', hk'⟩ := Option.ne_none_iff_exists'.mp hk
  have hnone := hs t k (h.records ht)
  rw [h.records hk'] at hnone
  cases hnone

/-- A task that is not canceled is no duplicate on record. -/
theorem Store.Recorded.duplicateTarget_eq_none {s : Store} (hs : s.Recorded) {t : TaskId}
    (ht : s.taskStatus t ≠ some .canceled) : s.duplicateTarget t = none := by
  by_contra hne
  obtain ⟨k, hk⟩ := Option.ne_none_iff_exists'.mp hne
  exact ht (hs.canceled hk)

/-- The step of a cancel as a duplicate: a new record between two tasks without one. -/
structure Declared (s s' : Store) (t k : TaskId) : Prop extends Canceled s s' t (some k) where
  distinct : t ≠ k
  fresh : s.duplicateTarget t = none
  original : s.duplicateTarget k = none

theorem cancelAsDuplicate_declared {s s' : Store} {t k : TaskId} {task : Task} (hs : s.Recorded)
    (h : cancelAsDuplicate t k s = .ok (task, s')) : Declared s s' t k := by
  obtain ⟨hne, horiginal, h⟩ := cancelAsDuplicate_ok.mp h
  have hcanceled := applyTransition_canceled h
  obtain ⟨status, hstatus, hopen⟩ := hcanceled.found
  obtain ⟨status', hstatus', hlive⟩ := (Option.any_eq_true _ _).mp horiginal
  refine { hcanceled with distinct := hne, fresh := ?_, original := ?_ }
  · apply hs.duplicateTarget_eq_none
    rw [hstatus]
    rintro ⟨⟩
    cases hopen
  · apply hs.duplicateTarget_eq_none
    rw [hstatus']
    rintro ⟨⟩
    cases hlive

namespace Declared

variable {s s' : Store} {t k : TaskId}

/-- Of two tasks without a record, the new one's target leads nowhere. -/
theorem recorded (h : Declared s s' t k) (hs : s.Recorded) : s'.Recorded := by
  constructor
  · intro x y hxy
    rw [Store.DuplicateOf, h.duplicateTarget] at hxy
    rw [h.status]
    split_ifs at hxy ⊢
    · rfl
    · exact hs.canceled hxy
  · have hstuck : ¬Relation.ReflTransGen s.DuplicateOf k t := by
      intro hpath
      rcases Relation.ReflTransGen.cases_head hpath with heq | ⟨y, hky, _⟩
      · exact h.distinct heq.symm
      · rw [Store.DuplicateOf, h.original] at hky
        cases hky
    refine (hs.ends.withEdge hstuck).mono fun x y hxy => ?_
    rw [Store.DuplicateOf, h.duplicateTarget] at hxy
    split_ifs at hxy with hx
    · exact .inr ⟨hx, (Option.some.inj hxy).symm⟩
    · exact .inl hxy

/-- The new record is the only one that was not there before, and its target has none. -/
theorem original_of_new (h : Declared s s' t k) {x y : TaskId} (hbefore : ¬s.DuplicateOf x y)
    (hafter : s'.DuplicateOf x y) : s'.duplicateTarget y = none := by
  rw [Store.DuplicateOf, h.duplicateTarget] at hafter
  split_ifs at hafter
  · rw [h.duplicateTarget, ← Option.some.inj hafter, if_neg h.distinct.symm]
    exact h.original
  · exact absurd hafter hbefore

/-- The records chain exactly when the task canceled was the original of another. -/
theorem unchained_iff (h : Declared s s' t k) (hs : s.Unchained) :
    s'.Unchained ↔ ∀ x, ¬s.DuplicateOf x t := by
  constructor
  · intro hs' x hx
    have hxt : x ≠ t := by
      rintro rfl
      rw [Store.DuplicateOf, h.fresh] at hx
      cases hx
    have hnone := hs' x t (by rw [Store.DuplicateOf, h.duplicateTarget, if_neg hxt]; exact hx)
    rw [h.duplicateTarget, if_pos rfl] at hnone
    cases hnone
  · intro hfree x y hxy
    rw [Store.DuplicateOf, h.duplicateTarget] at hxy
    by_cases hx : x = t
    · rw [if_pos hx, Option.some.injEq] at hxy
      rw [h.duplicateTarget, ← hxy, if_neg h.distinct.symm]
      exact h.original
    · rw [if_neg hx] at hxy
      have hy : y ≠ t := by
        rintro rfl
        exact hfree x hxy
      rw [h.duplicateTarget, if_neg hy]
      exact hs x y hxy

end Declared

/-! ## Every operation -/

/-- What an operation does to the records: a cancel as a duplicate that is accepted makes one, and
nothing else does. -/
theorem queue_declares {s : Store} (hs : s.Recorded) (op : Op) :
    (DeclaresNone s (queue.next s op) ∧
      ∀ t k, op = .task (.cancelAsDuplicate t k) → s.mayDuplicate t k = false) ∨
    ∃ t k, op = .task (.cancelAsDuplicate t k) ∧ s.mayDuplicate t k = true ∧
      Declared s (queue.next s op) t k := by
  -- One operation declares duplicates; every other kind declares none.
  by_cases hop : ∃ t k, op = .task (.cancelAsDuplicate t k)
  · obtain ⟨t, k, rfl⟩ := hop
    have hnext : queue.next s (.task (.cancelAsDuplicate t k)) = (cancelAsDuplicate t k).commit s :=
      Txn.commit_discard
    rw [hnext]
    cases hmay : s.mayDuplicate t k with
    | true =>
        obtain ⟨⟨task, s'⟩, h⟩ := Txn.accepts_iff.mp (cancelAsDuplicate_accepts.trans hmay)
        rw [Txn.commit_of_ok h]
        exact .inr ⟨t, k, rfl, hmay, cancelAsDuplicate_declared hs h⟩
    | false =>
        rw [Txn.commit_of_refused (cancelAsDuplicate_accepts.trans hmay)]
        refine .inl ⟨refl_of DeclaresNone s, fun t' k' heq => ?_⟩
        cases heq
        exact hmay
  · refine .inl ⟨?_, fun t k heq => absurd ⟨t, k, heq⟩ hop⟩
    cases op with
    | task op =>
        refine (declaresNone_taskOp fun t k heq => hop ⟨t, k, ?_⟩).commit s
        rw [heq]
    | run op => exact (declaresNone_runOp op).commit s
    | ask op => exact (declaresNone_askOp op).commit s
    | plan op => exact (declaresNone_planOp op).commit s

theorem queue_recorded {s : Store} {op : Op} (hs : s.Recorded) : (queue.next s op).Recorded := by
  rcases queue_declares hs op with ⟨h, _⟩ | ⟨t, k, _, _, h⟩
  · exact h.recorded hs
  · exact h.recorded hs

/-- The step cancels no task as a duplicate that is the original of another on record. -/
def Op.keepsOriginals (s : Store) : Op → Bool
  | .task (.cancelAsDuplicate t k) => !s.mayDuplicate t k || (s.duplicatesOf t).isEmpty
  | _ => true

theorem queue_unchained_iff {s : Store} {op : Op} (hs : s.Recorded) (hu : s.Unchained) :
    (queue.next s op).Unchained ↔ op.keepsOriginals s = true := by
  rcases queue_declares hs op with ⟨h, hrefused⟩ | ⟨t, k, rfl, hmay, h⟩
  · refine iff_of_true (h.unchained hu) ?_
    unfold Op.keepsOriginals
    split
    · rw [hrefused _ _ rfl]
      rfl
    · rfl
  · rw [h.unchained_iff hu, Op.keepsOriginals, hmay, Bool.not_true, Bool.false_or,
      List.isEmpty_iff, List.eq_nil_iff_forall_not_mem]
    simp only [Store.mem_duplicatesOf hs]

theorem recorded_init : queue.init.Recorded :=
  ⟨fun h => (by cases h), ⟨fun t => .intro t fun k h => by cases h⟩⟩

theorem recorded_run (ops : List Op) : (queue.run ops).Recorded :=
  Machine.invariant (fun _ _ hs => queue_recorded hs) recorded_init ops

/-- Following the duplicate records always ends, and a record is made of a task that is no duplicate
itself.  The records of a whole run do not chain exactly when it never cancels as a duplicate the
original of one on record. -/
theorem duplicate_records_end (ops : List Op) :
    (Graph.Ends (queue.run ops).DuplicateOf ∧ Graph.Acyclic (queue.run ops).DuplicateOf) ∧
    (∀ pre op post t k, ops = pre ++ op :: post → ¬(queue.run pre).DuplicateOf t k →
      (queue.run (pre ++ [op])).DuplicateOf t k →
        (queue.run (pre ++ [op])).duplicateTarget k = none) ∧
    ((∀ pre post, ops = pre ++ post → (queue.run pre).Unchained) ↔
      queue.Meets (fun s op => op.keepsOriginals s = true) queue.init ops) := by
  refine ⟨⟨(recorded_run ops).ends, (recorded_run ops).ends.acyclic⟩, ?_, ?_⟩
  · intro pre op post t k _ hbefore hafter
    rw [Machine.run_append] at hafter ⊢
    rcases queue_declares (recorded_run pre) op with ⟨h, _⟩ | ⟨t', k', _, _, h⟩
    · exact absurd (h.records hafter) hbefore
    · exact h.original_of_new hbefore hafter
  · exact Machine.always_iff_meets (J := Store.Recorded) (fun _ _ hs => queue_recorded hs)
      (fun _ _ hs hu => queue_unchained_iff hs hu) recorded_init (fun t k h => by cases h)

/-- Three drafts, the first canceled as a duplicate of the second, and the second as one of the
third. -/
def chained : List Op :=
  [.task (.add { title := "index" }), .task (.add { title := "index again" }),
    .task (.add { title := "search" }), .task (.cancelAsDuplicate 1 2),
    .task (.cancelAsDuplicate 2 3)]

theorem duplicate_of_duplicate : ¬(queue.run chained).Unchained := by
  intro h
  generalize hs : queue.run chained = s at h
  have hfirst : s.duplicateTarget 1 = some 2 := by
    subst hs
    decide +kernel
  have hsecond : s.duplicateTarget 2 = some 3 := by
    subst hs
    decide +kernel
  rw [h 1 2 hfirst] at hsecond
  cases hsecond

/-! ## The two ways to cancel a duplicate -/

/-- What a plan review of `p` does with a verdict that cancels `t` as a duplicate of `k`: its checks of
the action, and the action. -/
def planCancel (p : ProposalId) (t k : TaskId) : Tx Unit := do
  let members ← Txn.read fun s => s.members p
  checkAction members (.cancelDuplicate t k)
  checkOriginals [.cancelDuplicate t k]
  applyAction (.cancelDuplicate t k)

/-- After a step from `s` to `s'` every reader reports `t` as a duplicate of `k`: the record of the
task, the list of the original, and the statistics of every window that the step falls into. -/
structure Reports (s s' : Store) (t k : TaskId) : Prop where
  target : s'.duplicateTarget t = some k
  listed : t ∈ s'.duplicatesOf k
  counted : ∀ upto counts, s'.events.length ≤ upto → counts (some t) = true →
    { taskId := t, duplicateOf := k }
      ∈ (duplicateCancels s'.events s.events.length upto counts).tasks

theorem duplicateCancels_append {events : List Event} {t k : TaskId} {source : TaskStatus}
    {upto : Nat} {counts : Option TaskId → Bool} (hupto : events.length + 1 ≤ upto)
    (hcounts : counts (some t) = true) :
    { taskId := t, duplicateOf := k } ∈ (duplicateCancels (events ++
      [{ taskId := some t, body := .notice (.taskStatusChanged source .canceled (some k)) }])
        events.length upto counts).tasks := by
  rw [duplicateCancels, List.zipIdx_append, List.filter_append, List.filterMap_append,
    List.mem_append]
  refine .inr ?_
  simp [hcounts, Nat.add_comm 1, hupto]

theorem Canceled.reports {s s' : Store} {t k : TaskId} (h : Canceled s s' t (some k)) :
    Reports s s' t k := by
  have htarget : s'.duplicateTarget t = some k := by rw [h.duplicateTarget, if_pos rfl]
  refine ⟨htarget, Store.mem_duplicatesOf_of_canceled ?_ htarget, fun upto counts hupto hcounts => ?_⟩
  · rw [h.status, if_pos rfl]
  · obtain ⟨source, hevents⟩ := h.events
    rw [hevents, List.length_append] at hupto
    rw [hevents]
    exact duplicateCancels_append hupto hcounts

/-- The cancel by hand is reported. -/
theorem cancelAsDuplicate_reports {s s' : Store} {t k : TaskId} {task : Task}
    (h : cancelAsDuplicate t k s = .ok (task, s')) : Reports s s' t k :=
  (applyTransition_canceled (cancelAsDuplicate_ok.mp h).2.2).reports

section Review

variable {s s' : Store} {p : ProposalId} {t k : TaskId}

theorem checkAction_cancelDuplicate_ok {members : List TaskId} {u : Unit} :
    checkAction members (.cancelDuplicate t k) s = .ok (u, s') ↔
      (t ∈ members ∧ s.taskStatus t = some .submitted ∧ t ≠ k ∧
        (s.taskStatus k).any (· != .canceled) = true) ∧ s = s' := by
  simp only [checkAction, Txn.ensure_bind, readTask_bind, Txn.ensure_ok]
  simp only [PlanReviewAction.taskId, Store.taskStatus]
  constructor
  · rintro ⟨hmember, row, hrow, hsubmitted, hne, original, horiginal, hlive, rfl⟩
    refine ⟨⟨hmember, ?_, Ne.symm hne, ?_⟩, rfl⟩
    · rw [hrow, Option.map_some, hsubmitted]
    · simpa [horiginal] using hlive
  · rintro ⟨⟨hmember, hsubmitted, hne, hlive⟩, rfl⟩
    obtain ⟨row, hrow, hstatus⟩ := Option.map_eq_some_iff.mp hsubmitted
    obtain ⟨status, horiginal, hcanceled⟩ := (Option.any_eq_true _ _).mp hlive
    obtain ⟨original, hget, rfl⟩ := Option.map_eq_some_iff.mp horiginal
    exact ⟨hmember, row, hrow, hstatus, Ne.symm hne, original, hget, bne_iff_ne.mp hcanceled, rfl⟩

theorem planCancel_ok {u : Unit} :
    planCancel p t k s = .ok (u, s') ↔
      (t ∈ s.members p ∧ s.taskStatus t = some .submitted ∧ t ≠ k ∧
        (s.taskStatus k).any (· != .canceled) = true) ∧
      applyAction (.cancelDuplicate t k) s = .ok (u, s') := by
  have horiginals : ∀ {s s' : Store} {v : Unit}, checkOriginals [.cancelDuplicate t k] s = .ok (v, s')
      ↔ t ≠ k ∧ s = s' := by
    intro s s' v
    rw [ne_comm, checkOriginals, List.forM_eq_forM, List.forM_cons, List.forM_nil]
    rw [Txn.ensure_bind]
    simp
  rw [planCancel, Txn.read_bind]
  simp only [Txn.bind_ok, checkAction_cancelDuplicate_ok, horiginals]
  constructor
  · rintro ⟨_, _, ⟨hchecks, rfl⟩, _, _, ⟨_, rfl⟩, h⟩
    exact ⟨hchecks, h⟩
  · rintro ⟨hchecks, h⟩
    exact ⟨(), s, ⟨hchecks, rfl⟩, (), s, ⟨hchecks.2.2.1, rfl⟩, h⟩

/-- The action is a cancel that names no original, and an event of its own. -/
theorem applyAction_cancelDuplicate {u : Unit}
    (h : applyAction (.cancelDuplicate t k) s = .ok (u, s')) :
    ∃ s₁, Canceled s s₁ t none ∧ s'.events = s₁.events ++
      [{ taskId := some t, body := .notice (.taskCanceledAsDuplicate k) }] := by
  obtain ⟨task, s₁, hcancel, hrecord⟩ := Txn.bind_ok.mp h
  refine ⟨s₁, applyTransition_canceled hcancel, ?_⟩
  rw [← record_ok.mp hrecord]

/-- The cancel by plan review leaves the task without a record. -/
theorem planCancel_unreported {u : Unit} (h : planCancel p t k s = .ok (u, s')) :
    ¬Reports s s' t k := by
  intro hreports
  obtain ⟨s₁, hcanceled, hevents⟩ := applyAction_cancelDuplicate (planCancel_ok.mp h).2
  have hnone : s'.duplicateTarget t = none := by
    rw [Store.duplicateTarget_append hevents]
    show s₁.duplicateTarget t = none
    rw [hcanceled.duplicateTarget, if_pos rfl]
  rw [hreports.target] at hnone
  cases hnone

/-- A submitted task can be canceled, so only the original decides. -/
theorem Store.cancelable_of_submitted (h : s.taskStatus t = some .submitted) :
    s.cancelable t = true := by
  obtain ⟨row, hrow, hstatus⟩ := Option.map_eq_some_iff.mp h
  simp [cancelable, hrow, hstatus, TaskStatus.transition, Except.isOk, Except.toBool]

/-- Both ways accept the cancel under the same condition. -/
theorem planCancel_accepts (hmember : t ∈ s.members p)
    (hsubmitted : s.taskStatus t = some .submitted) :
    (planCancel p t k).accepts s = (cancelAsDuplicate t k).accepts s := by
  have hcancelable := Store.cancelable_of_submitted hsubmitted
  rw [cancelAsDuplicate_accepts, Store.mayDuplicate, hcancelable, Bool.and_true, Bool.eq_iff_iff,
    Txn.accepts_iff]
  simp only [Prod.exists, planCancel_ok, Bool.and_eq_true, decide_eq_true_eq]
  constructor
  · rintro ⟨u, s', ⟨_, _, hne, hlive⟩, _⟩
    exact ⟨hne, hlive⟩
  · rintro ⟨hne, hlive⟩
    obtain ⟨⟨task, s₁⟩, hcancel⟩ := Txn.accepts_iff.mp
      ((cancel_accepts none).trans hcancelable)
    have happly : applyAction (.cancelDuplicate t k) s = .ok ((), { s₁ with events := s₁.events ++
        [{ taskId := some t, body := .notice (.taskCanceledAsDuplicate k) }] }) :=
      Txn.bind_ok.mpr ⟨task, s₁, hcancel, record_ok.mpr rfl⟩
    exact ⟨(), _, ⟨hmember, hsubmitted, hne, hlive⟩, happly⟩

end Review

/-- The two ways to cancel `t` as a duplicate of `k` are accepted alike and reported alike. -/
structure CancelsAgree (s : Store) (p : ProposalId) (t k : TaskId) : Prop where
  accepted : (planCancel p t k).accepts s = (cancelAsDuplicate t k).accepts s
  byHand : ∀ task s', cancelAsDuplicate t k s = .ok (task, s') → Reports s s' t k
  byReview : ∀ u s', planCancel p t k s = .ok (u, s') → Reports s s' t k

/-- For a submitted member of a proposal the two ways are accepted alike, and what is canceled by hand
is always reported; they agree only where neither is accepted. -/
theorem duplicate_cancels_agree_iff {s : Store} {p : ProposalId} {t k : TaskId}
    (hmember : t ∈ s.members p) (hsubmitted : s.taskStatus t = some .submitted) :
    CancelsAgree s p t k ↔
      t = k ∨ ∀ status, s.taskStatus k = some status → status = .canceled := by
  have haccepts := planCancel_accepts (k := k) hmember hsubmitted
  have hiff : s.mayDuplicate t k = false ↔
      t = k ∨ ∀ status, s.taskStatus k = some status → status = .canceled := by
    rw [Store.mayDuplicate, Store.cancelable_of_submitted hsubmitted, Bool.and_true]
    cases s.taskStatus k <;> simp [or_iff_not_imp_left]
  rw [← hiff]
  constructor
  · intro h
    by_contra hmay
    obtain ⟨⟨u, s'⟩, hreview⟩ := Txn.accepts_iff.mp
      ((haccepts.trans cancelAsDuplicate_accepts).trans (by simpa using hmay))
    exact planCancel_unreported hreview (h.byReview u s' hreview)
  · intro hrefused
    refine ⟨haccepts, fun task s' h => cancelAsDuplicate_reports h, fun u s' h => ?_⟩
    have haccepted := Txn.accepts_iff.mpr ⟨(u, s'), h⟩
    rw [haccepts, cancelAsDuplicate_accepts, hrefused] at haccepted
    cases haccepted

/-- Two drafts, the first submitted alone. -/
def firstSubmitted : List Op :=
  [.task (.add { title := "index" }), .task (.add { title := "search" }),
    .plan (.submit { tasks := [1], owner := { origin := .person } } 0)]

/-- The second is canceled meanwhile, so neither way takes it for an original. -/
theorem duplicate_cancels_agree_canceled :
    CancelsAgree (queue.run (firstSubmitted ++ [.task (.transition 2 .cancel)])) 1 1 2 := by
  have hcanceled : (queue.run (firstSubmitted ++ [.task (.transition 2 .cancel)])).taskStatus 2
      = some .canceled := by
    decide +kernel
  refine (duplicate_cancels_agree_iff (by decide +kernel) (by decide +kernel)).mpr (.inr ?_)
  intro status hstatus
  rw [hcanceled] at hstatus
  exact (Option.some.inj hstatus).symm

theorem review_duplicate_unreported : ¬CancelsAgree (queue.run firstSubmitted) 1 1 2 := by
  intro h
  have haccepts : (planCancel 1 1 2).accepts (queue.run firstSubmitted) = true := by
    decide +kernel
  obtain ⟨⟨u, s'⟩, hreview⟩ := Txn.accepts_iff.mp haccepts
  exact planCancel_unreported hreview (h.byReview u s' hreview)

end Dagq
