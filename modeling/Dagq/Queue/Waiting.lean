/-
# Dagq.Queue.Waiting -- no submitted task waits outside a proposal that plan review will see.

A task is stranded when it is submitted and the proposal it names, if any, ended.  Most operations
submit no task and leave proposals and memberships alone; the ones that end a proposal also move its
submitted members on, so they strand a member only between their two halves.
-/
import Dagq.Queue.Submissions
import Dagq.Queue.Steps
import Dagq.Queue.Aside

namespace Dagq

open Lib

set_option synthInstance.maxSize 100000

/-- Submitted, and in no active proposal: no plan review takes the task up. -/
structure Store.Stranded (s : Store) (t : TaskId) : Prop where
  submitted : s.taskStatus t = some .submitted
  adrift : ∀ {p st}, s.proposalOf t = some p → s.proposalStatus p = some st → st.isActive = false

/-! ## Operations that submit no task -/

/-- No task became submitted; the proposals stand as they did, with the members they had. -/
structure Unwaiting (s s' : Store) : Prop where
  status : ∀ {t}, s'.taskStatus t = some .submitted → s.taskStatus t = some .submitted
  proposals : ∀ p, s'.proposalStatus p = s.proposalStatus p
  members : ∀ t, s'.proposalOf t = s.proposalOf t

instance : IsPreorder Store Unwaiting where
  refl _ := ⟨fun h => h, fun _ => rfl, fun _ => rfl⟩
  trans _ _ _ h₁ h₂ := ⟨fun h => h₁.status (h₂.status h),
    fun p => (h₂.proposals p).trans (h₁.proposals p),
    fun t => (h₂.members t).trans (h₁.members t)⟩

theorem Unwaiting.stranded {s s' : Store} (h : Unwaiting s s') {t : TaskId} (ht : s'.Stranded t) :
    s.Stranded t := by
  refine ⟨h.status ht.submitted, fun {p st} hp hst => ?_⟩
  exact ht.adrift ((h.members t).trans hp) ((h.proposals p).trans hst)

instance : Aloof Unwaiting where
  of_aside h := by
    refine ⟨fun {t} ht => ?_, fun p => ?_, fun t => ?_⟩
    · rw [Store.taskStatus, h.tasks] at ht
      exact ht
    · rw [Store.proposalStatus, h.proposals]
      rfl
    · rw [Store.proposalOf, h.tasks]
      rfl

instance : GoalBlind Unwaiting := ⟨⟨fun h => h, fun _ => rfl, fun _ => rfl⟩⟩

/-! ### Writes -/

/-- Plan reviews, asks and events may change. -/
instance unwaiting_write {planReviews : Store → Table PlanReviewId PlanReviewRow}
    {asks : Store → Table AskId Ask} {events : Store → List Event} :
    Txn.Moves Unwaiting (Txn.write fun s => { s with
      planReviews := planReviews s, asks := asks s, events := events s } : Tx Unit) :=
  .of_write fun _ => ⟨fun h => h, fun _ => rfl, fun _ => rfl⟩

instance unwaiting_record {event : Event} : Txn.Moves Unwaiting (record event) := by
  unfold record
  infer_instance

namespace Store

variable {s : Store}

theorem taskStatus_modify {id : TaskId} {f : TaskRow → TaskRow} {t : TaskId} :
    ({ s with tasks := s.tasks.modify id f } : Store).taskStatus t
      = if t = id then (s.tasks.get? id).map fun row => (f row).task.status
        else s.taskStatus t := by
  simp only [taskStatus, Table.get?_modify]
  split_ifs
  · rw [Option.map_map]
    rfl
  · rfl

theorem taskStatus_push {id : TaskId} {row : TaskRow} (h : s.tasks.get? id = none) {t : TaskId} :
    ({ s with tasks := s.tasks.push id row } : Store).taskStatus t
      = if t = id then some row.task.status else s.taskStatus t := by
  simp only [taskStatus, Table.get?_push h]
  split_ifs <;> rfl

theorem taskStatus_of_get {t : TaskId} {row : TaskRow} (h : s.tasks.get? t = some row) :
    s.taskStatus t = some row.task.status := by
  rw [taskStatus, h]
  rfl

end Store

instance : StatusBound Unwaiting where
  of_modify {s id f} hf := by
    refine ⟨fun {t} h => ?_, fun _ => rfl, fun t => ?_⟩
    · rw [Store.taskStatus_modify] at h
      split_ifs at h with ht
      · obtain ⟨row, hrow, hstatus⟩ := Option.map_eq_some_iff.mp h
        rw [ht, Store.taskStatus_of_get hrow, ← (hf row hrow).1, hstatus]
      · exact h
    · rw [Store.proposalOf_modifyTask]
      split_ifs with ht
      · rw [ht, Store.proposalOf]
        cases hrow : s.tasks.get? id with
        | none => rfl
        | some row => exact (hf row hrow).2
      · rfl

/-- A task saved over `row`, submitted only if it was. -/
theorem unwaiting_saveTask {s : Store} {id : TaskId} {row : TaskRow} {task : Task}
    (hrow : s.tasks.get? id = some row)
    (hstatus : task.status = .submitted → row.task.status = .submitted) :
    Unwaiting s { s with tasks := s.tasks.modify id fun row => { row with task := task } } := by
  refine ⟨fun {t} h => ?_, fun _ => rfl, Store.proposalOf_modifyTask_same fun _ => rfl⟩
  rw [Store.taskStatus_modify, hrow] at h
  split_ifs at h with ht
  · rw [ht, Store.taskStatus_of_get hrow, hstatus (by simpa using h)]
  · exact h

/-- Rewriting the plan-review columns of a proposal. -/
theorem unwaiting_updateReview {id : ProposalId} {f : ProposalRow → ProposalRow}
    (hf : ∀ row, (f row).status = row.status) : Txn.Moves Unwaiting (updateReview id f) :=
  .of_write fun _ => ⟨fun h => h, Store.proposalStatus_modify hf, fun _ => rfl⟩

instance unwaiting_setHold {id : ProposalId} {hold : Option ReviewHold} :
    Txn.Moves Unwaiting (setHold id hold) :=
  unwaiting_updateReview fun _ => rfl

instance unwaiting_dropReview {id : ProposalId} : Txn.Moves Unwaiting (dropReview id) :=
  unwaiting_updateReview fun _ => rfl

instance unwaiting_awaitDelivery {id : ProposalId} {reasons : List String} {now : Seconds} :
    Txn.Moves Unwaiting (awaitDelivery id reasons now) :=
  unwaiting_updateReview fun _ => rfl

instance unwaiting_claimRevise {id : ProposalId} {now : Seconds} :
    Txn.Moves Unwaiting (claimRevise id now) := by
  apply unwaiting_updateReview
  intro row
  split_ifs <;> rfl

theorem unwaiting_reviseDelivery {id : ProposalId} {due : ProposalRow → Bool}
    {f : ProposalRow → ProposalRow} {records : Bool → Bool} {notice : Notice}
    (hf : ∀ row, (f row).status = row.status) :
    Txn.Moves Unwaiting (reviseDelivery id due f records notice) := by
  have hwrite : Txn.Moves Unwaiting
      (updateReview id fun row => if row.status = .revising ∧ due row = true then f row else row) := by
    apply unwaiting_updateReview
    intro row
    split_ifs
    · exact hf row
    · rfl
  infer_instance

/-! ### Tasks -/

instance unwaiting_insertTaskRow {new : NewTask} : Txn.Moves Unwaiting (insertTaskRow new) := by
  refine ⟨fun s id s' h => ?_⟩
  simp only [insertTaskRow, Txn.read_bind, domain_bind] at h
  obtain ⟨task, htask, h⟩ := h
  obtain ⟨_, s₁, hgoal, rest⟩ := Txn.bind_ok.mp h
  obtain rfl : s₁ = s := Txn.Moves.of_ok (R := fun s s' : Store => s' = s) hgoal
  obtain ⟨hstatus, _⟩ := Task.create_ok htask
  refine trans_of Unwaiting ?_ (Txn.Moves.of_ok (Txn.write_bind.mp rest))
  refine ⟨fun {t} ht => ?_, fun _ => rfl, Store.proposalOf_pushTask⟩
  rw [Store.taskStatus_push (Table.nextId_fresh _)] at ht
  split_ifs at ht
  · -- A new task is a draft.
    rw [hstatus] at ht
    cases ht
  · exact ht

/-- The actions that submit a task. -/
def TaskAction.submits : TaskAction → Bool
  | .submit | .reopen => true
  | _ => false

theorem TaskStatus.transition_submits {status : TaskStatus} {action : TaskAction}
    {unfinishedRun : Bool} (h : status.transition action unfinishedRun = .ok .submitted) :
    action.submits = true := by
  revert h
  cases status <;> cases action <;> cases unfinishedRun <;> intro h <;> first | rfl | cases h

theorem unwaiting_applyTransition {taskId : TaskId} {action : TaskAction}
    {duplicateOf : Option TaskId} (haction : action.submits = false) :
    Txn.Moves Unwaiting (applyTransition taskId action duplicateOf) := by
  refine ⟨fun s task s' h => ?_⟩
  simp only [applyTransition, saveTask, Txn.read_bind, domain_bind, readTask_bind,
    Txn.write_bind] at h
  obtain ⟨row, hrow, task', htask, rest⟩ := h
  obtain ⟨status, hstatus, rfl⟩ := Task.transition_ok.mp htask
  refine trans_of Unwaiting (unwaiting_saveTask hrow fun hsubmitted => ?_) (Txn.Moves.of_ok rest)
  -- Only the two actions that are excluded lead to `submitted`.
  obtain rfl : status = .submitted := hsubmitted
  rw [TaskStatus.transition_submits hstatus] at haction
  cases haction

instance unwaiting_cancel {taskId : TaskId} {duplicateOf : Option TaskId} :
    Txn.Moves Unwaiting (applyTransition taskId .cancel duplicateOf) :=
  unwaiting_applyTransition rfl

instance unwaiting_draft {taskId : TaskId} :
    Txn.Moves Unwaiting (applyTransition taskId .draft none) :=
  unwaiting_applyTransition rfl

instance unwaiting_ready {taskId : TaskId} :
    Txn.Moves Unwaiting (applyTransition taskId .ready none) :=
  unwaiting_applyTransition rfl

instance unwaiting_approved {taskId : TaskId} :
    Txn.Moves Unwaiting (applyTransition taskId .approve none) :=
  unwaiting_applyTransition rfl

instance unwaiting_byHand {taskId : TaskId} {action : HandAction} :
    Txn.Moves Unwaiting (transitionTask taskId action.action) :=
  unwaiting_applyTransition (by cases action <;> rfl)

theorem unwaiting_taskOp (op : TaskOp) : Txn.Moves Unwaiting op.exec := by
  cases op <;> unfold TaskOp.exec <;> infer_instance

theorem unwaiting_askOp (op : AskOp) : Txn.Moves Unwaiting op.exec := by
  cases op <;> unfold AskOp.exec <;> infer_instance

/-! ### Runs -/

instance unwaiting_claimTask {runId : RunId} {baseCommit : CommitSha} {order : List TaskId} :
    Txn.Moves Unwaiting (claimTask runId baseCommit order) := by
  refine ⟨fun s taskId s' h => ?_⟩
  simp only [claimTask, saveTask, Txn.read_bind, Txn.found_bind, domain_bind, readTask_bind,
    Txn.write_bind] at h
  obtain ⟨t, _, row, hrow, task, htask, run, _, rest⟩ := h
  obtain ⟨_, rfl⟩ := Task.claim_ok.mp htask
  refine trans_of Unwaiting ?_ (Txn.Moves.of_ok rest)
  exact unwaiting_saveTask hrow nofun

instance unwaiting_finishIntegration {id : RunId} {token : Token} {now : Seconds}
    {commit mainBefore : CommitSha} :
    Txn.Moves Unwaiting (finishIntegration id token now commit mainBefore) := by
  refine ⟨fun s u s' h => ?_⟩
  obtain ⟨_, s₁, hrenew, h⟩ := Txn.bind_ok.mp h
  obtain ⟨run, s₂, happly, h⟩ := Txn.bind_ok.mp h
  obtain ⟨_, s₃, hdrop, h⟩ := Txn.bind_ok.mp h
  simp only [readTask_bind, Txn.ensure_bind, saveTask, Txn.write_bind] at h
  obtain ⟨row, hrow, _, rest⟩ := h
  have hbefore : Unwaiting s s₃ := trans_of Unwaiting (Txn.Moves.of_ok hrenew)
    (trans_of Unwaiting (Txn.Moves.of_ok happly) (Txn.Moves.of_ok hdrop))
  refine trans_of Unwaiting hbefore (trans_of Unwaiting ?_ (Txn.Moves.of_ok rest))
  exact unwaiting_saveTask hrow nofun

instance unwaiting_triageAnswered {id : RunId} {taskId : TaskId} {ask : Option Ask}
    {answer reason : String} :
    Txn.Moves Unwaiting (triageAnswered id taskId ask answer reason) := by
  unfold triageAnswered
  infer_instance

instance unwaiting_finishTriage {id : RunId} {token : Token} {now : Seconds} {action : TriageAction}
    {also : List RuntimeEvent} : Txn.Moves Unwaiting (finishTriage id token now action also) := by
  unfold finishTriage
  infer_instance

instance unwaiting_decideTriage {id : RunId} {askId : AskId} {answer reason : String}
    {alive : Pid → Bool} {now : Seconds} :
    Txn.Moves Unwaiting (decideTriage id askId answer reason alive now) := by
  unfold decideTriage
  infer_instance

theorem unwaiting_runOp (op : RunOp) : Txn.Moves Unwaiting op.exec := by
  cases op <;> unfold RunOp.exec <;> infer_instance

/-! ## Operations that end a proposal, or submit a task -/

/-- Whoever is stranded was stranded before. -/
def StrandsNone (s s' : Store) : Prop := ∀ ⦃t⦄, s'.Stranded t → s.Stranded t

instance : IsPreorder Store StrandsNone where
  refl _ _ h := h
  trans _ _ _ h₁ h₂ _ h := h₁ (h₂ h)

instance (priority := low) strandsNone_of_unwaiting {α : Type} {m : Tx α}
    [h : Txn.Moves Unwaiting m] : Txn.Moves StrandsNone m :=
  h.mono fun _ _ hm _ ht => hm.stranded ht

/-- The proposals' table aside, saving a proposal leaves everything as it was. -/
theorem saveProposal_tasks {p : Proposal} {u : Unit} {s s' : Store}
    (h : saveProposal p s = .ok (u, s')) : s'.tasks = s.tasks := by
  rw [saveProposal, Txn.write_ok] at h
  rw [← h]

/-- A proposal that is active once saved strands nobody. -/
theorem strandsNone_saveProposal {p : Proposal} {u : Unit} {s s' : Store}
    (hactive : p.status.isActive = true) (h : saveProposal p s = .ok (u, s')) :
    StrandsNone s s' := by
  obtain ⟨hstatus, hof, _⟩ := saveProposal_ok h
  intro t ht
  refine ⟨?_, fun {q st} hq hst => ?_⟩
  · have hsubmitted := ht.submitted
    rw [Store.taskStatus, saveProposal_tasks h] at hsubmitted
    exact hsubmitted
  · by_cases hp : q = p.id
    · have hadrift := ht.adrift ((hof t).trans hq) ((hstatus q).trans (if_pos hp))
      rw [hactive] at hadrift
      cases hadrift
    · exact ht.adrift ((hof t).trans hq) ((hstatus q).trans ((if_neg hp).trans hst))

/-! ### Ending a proposal -/

/-- A proposal saved, and its members moved out of `submitted` before anyone looks: nobody is
stranded. -/
theorem strandsNone_of_movedOn {p : Proposal} {u : Unit} {s s₁ s' : Store}
    (hsave : saveProposal p s = .ok (u, s₁)) (hrest : Unwaiting s₁ s')
    (hmoved : ∀ t, s.proposalOf t = some p.id → s'.taskStatus t ≠ some .submitted) :
    StrandsNone s s' := by
  obtain ⟨hstatus, hof, _⟩ := saveProposal_ok hsave
  intro t ht
  have ht₁ := hrest.stranded ht
  refine ⟨?_, fun {q st} hq hst => ?_⟩
  · have hsubmitted := ht₁.submitted
    rw [Store.taskStatus, saveProposal_tasks hsave] at hsubmitted
    exact hsubmitted
  · have hp : q ≠ p.id := by
      rintro rfl
      exact hmoved t hq ht.submitted
    exact ht₁.adrift ((hof t).trans hq) ((hstatus q).trans ((if_neg hp).trans hst))

theorem applyTransition_leaves {taskId : TaskId} {action : TaskAction} {duplicateOf : Option TaskId}
    {task : Task} {s s' : Store} (haction : action.submits = false)
    (h : applyTransition taskId action duplicateOf s = .ok (task, s')) :
    s'.taskStatus taskId ≠ some .submitted := by
  simp only [applyTransition, saveTask, Txn.read_bind, domain_bind, readTask_bind,
    Txn.write_bind] at h
  obtain ⟨row, hrow, task', htask, rest⟩ := h
  obtain ⟨status, hstatus, rfl⟩ := Task.transition_ok.mp htask
  intro hsubmitted
  have hbefore := (Txn.Moves.of_ok (R := Unwaiting) rest).status hsubmitted
  rw [Store.taskStatus_modify, if_pos rfl, hrow] at hbefore
  obtain rfl : status = .submitted := by simpa using hbefore
  rw [TaskStatus.transition_submits hstatus] at haction
  cases haction

/-- A round over a member: it is moved on when it is submitted, and is in another status otherwise. -/
theorem leaves_of_when {t : TaskId} {m : TaskRow → Tx Unit} {u : Unit} {s s' : Store}
    (hm : ∀ row u s₁, m row s = .ok (u, s₁) → s₁.taskStatus t ≠ some .submitted)
    (h : (do
      let row ← readTask t
      Txn.when (row.task.status = .submitted) (m row) : Tx Unit) s = .ok (u, s')) :
    s'.taskStatus t ≠ some .submitted := by
  rw [readTask_bind] at h
  obtain ⟨row, hrow, h⟩ := h
  rcases Txn.when_ok.mp h with ⟨_, h⟩ | ⟨hother, rfl⟩
  · exact hm row u s' h
  · rw [Store.taskStatus_of_get hrow]
    simpa using hother

theorem returnToDraft_leaves {t : TaskId} {u : Unit} {s s' : Store}
    (h : returnToDraft t s = .ok (u, s')) : s'.taskStatus t ≠ some .submitted := by
  refine leaves_of_when (fun row u s₁ h => ?_) h
  obtain ⟨_, _, hdraft, hpure⟩ := Txn.bind_ok.mp h
  obtain ⟨_, rfl⟩ := Txn.pure_ok.mp hpure
  exact applyTransition_leaves rfl hdraft

theorem cancelMember_leaves {t : TaskId} {u : Unit} {s s' : Store}
    (h : cancelMember t s = .ok (u, s')) : s'.taskStatus t ≠ some .submitted := by
  refine leaves_of_when (fun row u s₁ h => ?_) h
  obtain ⟨_, _, hcancel, hpure⟩ := Txn.bind_ok.mp h
  obtain ⟨_, rfl⟩ := Txn.pure_ok.mp hpure
  exact applyTransition_leaves rfl hcancel

theorem approveTask_leaves {id : ProposalId} {t : TaskId} {u : Unit} {s s' : Store}
    (h : approveTask id t s = .ok (u, s')) : s'.taskStatus t ≠ some .submitted := by
  refine leaves_of_when (fun row u s₁ h => ?_) h
  rw [Txn.read_bind] at h
  rcases Txn.option_ok.mp h with ⟨_, h⟩ | ⟨goalId, _, h⟩
  · obtain ⟨_, _, happrove, hpure⟩ := Txn.bind_ok.mp h
    obtain ⟨_, rfl⟩ := Txn.pure_ok.mp hpure
    exact applyTransition_leaves rfl happrove
  · -- The goal closed meanwhile: the task returns to draft, and the withheld approval is recorded.
    obtain ⟨_, s₂, hdraft, hnotice⟩ := Txn.bind_ok.mp h
    intro hsubmitted
    exact applyTransition_leaves rfl hdraft
      ((Txn.Moves.of_ok (R := Unwaiting) hnotice).status hsubmitted)

/-- Nobody of `ts` is submitted any more, and no one else is newly. -/
def MovedOn (ts : List TaskId) (s s' : Store) : Prop :=
  Unwaiting s s' ∧ ∀ t ∈ ts, s'.taskStatus t ≠ some .submitted

/-- Rounds over the members of a proposal, each of which moves its own on. -/
theorem forM_movedOn {m : TaskId → Tx PUnit} [hm : ∀ t, Txn.Moves Unwaiting (m t)]
    (hleaves : ∀ t s u s', m t s = .ok (u, s') → s'.taskStatus t ≠ some .submitted)
    {ts : List TaskId} {u : PUnit} {s s' : Store} (h : (ts.forM m) s = .ok (u, s')) :
    MovedOn ts s s' := by
  refine Txn.forM_each (P := fun t s => s.taskStatus t ≠ some .submitted) (R := Unwaiting) ?_ ?_ h
  · exact fun _ _ _ hR hP hsubmitted => hP (hR.status hsubmitted)
  · exact fun t _ s u s' h => ⟨(hm t).of_ok h, hleaves t s u s' h⟩

theorem MovedOn.trans {ts : List TaskId} {s s₁ s' : Store} (h : MovedOn ts s s₁)
    (hrest : Unwaiting s₁ s') : MovedOn ts s s' :=
  ⟨trans_of Unwaiting h.1 hrest, fun t ht hsubmitted => h.2 t ht (hrest.status hsubmitted)⟩

theorem Store.mem_members {s : Store} {id : ProposalId} {t : TaskId}
    (h : s.proposalOf t = some id) : t ∈ s.members id := by
  obtain ⟨row, hrow, hmember⟩ := Option.bind_eq_some_iff.mp h
  rw [members, mem_sorted]
  refine List.mem_map.mpr ⟨(t, row), Table.mem_select.mpr ⟨hrow, ?_⟩, rfl⟩
  rw [hmember]
  exact decide_eq_true rfl

/-- An operation that ends a proposal by `command` and then moves its members on. -/
theorem strandsNone_ending {α : Type} {id : ProposalId}
    {command : Proposal → Except DomainError Proposal} {rest : Proposal → Proposal → Tx α}
    (hcommand : ∀ p p', command p = .ok p' → p'.id = p.id ∧ p'.taskIds = p.taskIds)
    (hrest : ∀ p p' s a s', rest p p' s = .ok (a, s') → MovedOn p'.taskIds s s') :
    Txn.Moves StrandsNone (do
      let p ← readProposal id
      let p' ← Tx.domain (command p)
      saveProposal p'
      rest p p') := by
  refine ⟨fun s a s' h => ?_⟩
  obtain ⟨p, p', s₁, hp, hp', hsave, h⟩ := command_ok h
  obtain ⟨hid, _, htasks⟩ := Store.proposal?_status hp
  obtain ⟨hid', htasks'⟩ := hcommand p p' hp'
  obtain ⟨hunwaiting, hmoved⟩ := hrest p p' s₁ a s' h
  refine strandsNone_of_movedOn hsave hunwaiting fun t ht => hmoved t ?_
  -- The rounds went over every member there was.
  rw [htasks', htasks]
  exact Store.mem_members (by rw [ht, hid', hid])

theorem Proposal.accept_members {p p' : Proposal} (h : p.accept = .ok p') :
    p'.id = p.id ∧ p'.taskIds = p.taskIds := by
  simp only [accept, except_bind_ok, except_pure_ok] at h
  obtain ⟨_, _, rfl⟩ := h
  exact ⟨rfl, rfl⟩

theorem Proposal.cancel_members {p p' : Proposal} (h : p.cancel = .ok p') :
    p'.id = p.id ∧ p'.taskIds = p.taskIds := by
  simp only [cancel, except_bind_ok, except_pure_ok] at h
  obtain ⟨_, _, rfl⟩ := h
  exact ⟨rfl, rfl⟩

theorem Proposal.withdraw_members {p p' : Proposal} (h : p.withdraw = .ok p') :
    p'.id = p.id ∧ p'.taskIds = p.taskIds := by
  simp only [withdraw, except_bind_ok, except_pure_ok] at h
  obtain ⟨_, _, rfl⟩ := h
  exact ⟨rfl, rfl⟩

instance unwaiting_approveTask {id : ProposalId} {t : TaskId} :
    Txn.Moves Unwaiting (approveTask id t) := by
  infer_instance

instance strandsNone_approve {id : ProposalId} : Txn.Moves StrandsNone (approve id) := by
  refine strandsNone_ending (fun _ _ => Proposal.accept_members) fun p p' s a s' h => ?_
  obtain ⟨_, s₁, hloop, hgoals⟩ := Txn.bind_ok.mp h
  have hmoved := forM_movedOn (fun _ _ _ _ => approveTask_leaves) hloop
  exact hmoved.trans (Txn.Moves.of_ok hgoals)

instance strandsNone_cancelProposal {id : ProposalId} :
    Txn.Moves StrandsNone (cancelProposal id) :=
  strandsNone_ending (fun _ _ => Proposal.cancel_members) fun _ _ _ _ _ h =>
    forM_movedOn (fun _ _ _ _ => cancelMember_leaves) h

instance strandsNone_withdraw {id : ProposalId} {now : Seconds} :
    Txn.Moves StrandsNone (withdraw id now) := by
  refine strandsNone_ending (fun _ _ => Proposal.withdraw_members) fun p p' s a s' h => ?_
  obtain ⟨_, s₁, hdrop, h⟩ := Txn.bind_ok.mp h
  obtain ⟨_, s₂, hloop, hgoals⟩ := Txn.bind_ok.mp h
  have hmoved : MovedOn p'.taskIds s₁ s₂ := by
    refine forM_movedOn (fun t s u s' h => ?_) hloop
    obtain ⟨_, s₃, hdraft, hrest⟩ := Txn.bind_ok.mp h
    intro hsubmitted
    exact returnToDraft_leaves hdraft ((Txn.Moves.of_ok (R := Unwaiting) hrest).status hsubmitted)
  have hdropped : Unwaiting s₁ s' ∧ _ := hmoved.trans (Txn.Moves.of_ok hgoals)
  exact ⟨trans_of Unwaiting (Txn.Moves.of_ok hdrop) hdropped.1, hdropped.2⟩

/-- Sent back, a proposal is active still. -/
instance strandsNone_sendBack {id : ProposalId} : Txn.Moves StrandsNone (sendBack id) := by
  refine ⟨fun s a s' h => ?_⟩
  simp only [sendBack, readProposal_bind, domain_bind] at h
  obtain ⟨p, hp, p', hp', h⟩ := h
  obtain ⟨_, s₁, hsave, h⟩ := Txn.bind_ok.mp h
  have hrevising : p'.status = .revising := (Proposal.sendBack_ok hp').status_eq
  exact trans_of StrandsNone (strandsNone_saveProposal (by rw [hrevising]; rfl) hsave)
    (Txn.Moves.of_ok h)

/-! ### Settling -/

/-- No task of the proposals `ids` is submitted. -/
def Store.Emptied (ids : List ProposalId) (s : Store) : Prop :=
  ∀ id ∈ ids, ∀ t, s.proposalOf t = some id → s.taskStatus t ≠ some .submitted

theorem Store.Emptied.of_tasks {ids : List ProposalId} {s s' : Store} (h : s.Emptied ids)
    (htasks : s'.tasks = s.tasks) : s'.Emptied ids := by
  intro id hid t ht
  rw [proposalOf, htasks] at ht
  rw [taskStatus, htasks]
  exact h id hid t ht

/-- A proposal without a submitted member ends. -/
theorem settleProposal_ok {ids : List ProposalId} {id : ProposalId} (hid : id ∈ ids) {u : Unit}
    {s s' : Store} (h : settleProposal id s = .ok (u, s')) (hemptied : s.Emptied ids) :
    s'.Emptied ids ∧ StrandsNone s s' := by
  simp only [settleProposal, Txn.read_bind, readProposal_bind, domain_bind] at h
  obtain ⟨p, hp, p', hp', h⟩ := h
  obtain ⟨_, s₁, hsave, h⟩ := Txn.bind_ok.mp h
  obtain ⟨_, s₂, hhold, h⟩ := Txn.bind_ok.mp h
  have hp'id : p'.id = id := by
    obtain ⟨rfl, _, _⟩ := Store.proposal?_status hp
    split_ifs at hp'
    · exact (Proposal.accept_members hp').1
    · exact (Proposal.cancel_members hp').1
  -- Only the proposal's own row is written.
  have htasks : s'.tasks = s.tasks := by
    rw [setHold, updateReview, Txn.write_ok] at hhold
    have hnotice : s'.tasks = s₂.tasks := by
      rw [Txn.read_bind] at h
      rcases Txn.option_ok.mp h with ⟨_, h⟩ | ⟨anchor, _, h⟩
      · rw [(Txn.pure_ok.mp h).2]
      · rw [← record_ok.mp h]
    rw [hnotice, ← hhold]
    show s₁.tasks = s.tasks
    exact saveProposal_tasks hsave
  have hafter := hemptied.of_tasks htasks
  refine ⟨hafter, strandsNone_of_movedOn hsave ?_ fun t ht => ?_⟩
  · exact trans_of Unwaiting (Txn.Moves.of_ok hhold) (Txn.Moves.of_ok h)
  · refine hafter id hid t ?_
    rw [Store.proposalOf, htasks, ← hp'id]
    exact ht

instance strandsNone_settleProposals : Txn.Moves StrandsNone settleProposals := by
  refine ⟨fun s u s' h => ?_⟩
  rw [settleProposals, Txn.read_bind] at h
  refine (Txn.forM_of_inv (fun id hid s u s' => settleProposal_ok hid) h ?_).2
  -- What the list was selected by.
  intro id hid t ht hsubmitted
  obtain ⟨⟨id', row⟩, hmem, rfl⟩ := List.mem_map.mp hid
  obtain ⟨_, hcond⟩ := Table.mem_select.mp hmem
  simp only [Store.isEmptied, Bool.and_eq_true, Bool.not_eq_true'] at hcond
  have hnone := Table.any_eq_false_iff.mp hcond.1.2
  obtain ⟨trow, htrow, hmember⟩ := Option.bind_eq_some_iff.mp ht
  have hother := hnone t trow htrow
  rw [Store.taskStatus_of_get htrow, Option.some.injEq] at hsubmitted
  simp [hmember, hsubmitted] at hother

/-! ### Submitting a task -/

/-- Every task but `t` is as it was. -/
def ButTask (t : TaskId) (s s' : Store) : Prop :=
  ∀ t', t' ≠ t → s'.tasks.get? t' = s.tasks.get? t'

instance {t : TaskId} : IsPreorder Store (ButTask t) where
  refl _ _ _ := rfl
  trans _ _ _ h₁ h₂ t' ht' := (h₂ t' ht').trans (h₁ t' ht')

instance butTask_modify {t : TaskId} {f : TaskRow → TaskRow} :
    Txn.Moves (ButTask t) (Txn.write fun s => { s with tasks := s.tasks.modify t f } : Tx Unit) := by
  refine .of_write fun s t' ht' => ?_
  rw [Table.get?_modify, if_neg ht']

instance butTask_record {t : TaskId} {event : Event} : Txn.Moves (ButTask t) (record event) :=
  .of_write fun _ _ _ => rfl

instance butTask_applyTransition {t : TaskId} {action : TaskAction} {duplicateOf : Option TaskId} :
    Txn.Moves (ButTask t) (applyTransition t action duplicateOf) := by
  unfold applyTransition saveTask
  infer_instance

/-- A task submitted, whatever its status, and put into an active proposal. -/
theorem strandsNone_enter {id : ProposalId} {t : TaskId} {action : TaskAction}
    {duplicateOf : Option TaskId} {task : Task} {u : Unit} {st : ProposalStatus} {s s₁ s' : Store}
    (hstatus : s.proposalStatus id = some st) (hactive : st.isActive = true)
    (htransition : applyTransition t action duplicateOf s = .ok (task, s₁))
    (hjoin : joinProposal t id s₁ = .ok (u, s')) :
    (∀ p, s'.proposalStatus p = s.proposalStatus p) ∧ StrandsNone s s' := by
  have hframe : Framed s s₁ := Txn.Moves.of_ok htransition
  have hother : ButTask t s s₁ := Txn.Moves.of_ok htransition
  rw [joinProposal, Txn.write_ok] at hjoin
  subst hjoin
  have hproposals : ∀ p, s₁.proposalStatus p = s.proposalStatus p := by
    intro p
    rw [Store.proposalStatus, hframe.proposals]
    rfl
  refine ⟨hproposals, fun t' ht' => ?_⟩
  by_cases heq : t' = t
  · -- It is in the active proposal now, or is no task at all.
    subst heq
    have hsubmitted := ht'.submitted
    rw [Store.taskStatus_modify, if_pos rfl] at hsubmitted
    obtain ⟨row, hrow, _⟩ := Option.map_eq_some_iff.mp hsubmitted
    have hof : ({ s₁ with tasks := s₁.tasks.modify t' fun row =>
        { row with proposalId := some id } } : Store).proposalOf t' = some id := by
      rw [Store.proposalOf_modifyTask, if_pos rfl, hrow]
      rfl
    have hadrift := ht'.adrift hof ((hproposals id).trans hstatus)
    rw [hactive] at hadrift
    cases hadrift
  · refine ⟨?_, fun {q st} hq hst => ?_⟩
    · have hsubmitted := ht'.submitted
      rw [Store.taskStatus_modify, if_neg heq, Store.taskStatus, hother t' heq] at hsubmitted
      exact hsubmitted
    · refine ht'.adrift ?_ ((hproposals q).trans hst)
      rw [Store.proposalOf_modifyTask, if_neg heq, hframe.proposalOf]
      exact hq

instance strandsNone_reopen {reviewed : ProposalId} {now : Seconds} {item : Reopen} :
    Txn.Moves StrandsNone (reopen reviewed now item) := by
  refine ⟨fun s u s' h => ?_⟩
  simp only [reopen, Txn.read_bind] at h
  rcases Txn.when_ok.mp h with ⟨_, h⟩ | ⟨_, rfl⟩
  · simp only [reopenTask, Txn.read_bind, domain_bind] at h
    obtain ⟨reopened, hreopen, h⟩ := h
    obtain ⟨_, s₁, hsave, h⟩ := Txn.bind_ok.mp h
    obtain ⟨_, s₂, htransition, h⟩ := Txn.bind_ok.mp h
    obtain ⟨_, s₃, hjoin, rest⟩ := Txn.bind_ok.mp h
    obtain ⟨hid, hrevising⟩ := Proposal.reopen_ok hreopen
    have hactive : reopened.status.isActive = true := by rw [hrevising]; rfl
    have hstatus : s₁.proposalStatus s.proposals.nextId = some reopened.status := by
      rw [(saveProposal_ok hsave).1, if_pos hid.symm]
    refine trans_of StrandsNone (strandsNone_saveProposal hactive hsave)
      (trans_of StrandsNone (strandsNone_enter hstatus hactive htransition hjoin).2 ?_)
    exact Txn.Moves.of_ok rest
  · exact refl_of StrandsNone s

/-- A draft that joins an active proposal. -/
theorem submitTask_ok {id : ProposalId} {t : TaskId} {u : Unit} {s s' : Store}
    (h : submitTask id t s = .ok (u, s')) (hstatus : s.proposalStatus id = some .submitted) :
    s'.proposalStatus id = some .submitted ∧ StrandsNone s s' := by
  rw [submitTask, readTask_bind] at h
  obtain ⟨row, _, h⟩ := h
  rcases Txn.when_ok.mp h with ⟨_, h⟩ | ⟨_, rfl⟩
  · obtain ⟨_, s₁, htransition, h⟩ := Txn.bind_ok.mp h
    obtain ⟨_, s₂, hjoin, hnotice⟩ := Txn.bind_ok.mp h
    obtain ⟨hproposals, hstrands⟩ := strandsNone_enter hstatus rfl htransition hjoin
    have hlast : Unwaiting s₂ s' := Txn.Moves.of_ok hnotice
    refine ⟨?_, trans_of StrandsNone hstrands fun t ht => hlast.stranded ht⟩
    rw [hlast.proposals, hproposals, hstatus]
  · exact ⟨hstatus, refl_of StrandsNone _⟩

instance strandsNone_submitMembers {submission : Submission} {existing : Option Proposal}
    {now : Seconds} : Txn.Moves StrandsNone (submitMembers submission existing now) := by
  refine ⟨fun s id s' h => ?_⟩
  simp only [submitMembers, Txn.read_bind] at h
  obtain ⟨_, s₁, hgoals, h⟩ := Txn.bind_ok.mp h
  obtain rfl : s₁ = s := Txn.Moves.of_ok (R := fun s s' : Store => s' = s) hgoals
  simp only [Txn.read_bind, domain_bind] at h
  obtain ⟨_, _, h⟩ := h
  obtain ⟨_, s₂, hjoins, h⟩ := Txn.bind_ok.mp h
  obtain ⟨rfl, _⟩ := Txn.forM_check (fun _ _ _ _ => checkTaskJoins_ok) hjoins
  obtain ⟨adoptions, s₃, hadoptions, h⟩ := Txn.bind_ok.mp h
  obtain rfl : s₃ = s₂ := Txn.Moves.of_ok (R := fun s s' : Store => s' = s) hadoptions
  simp only [Txn.read_bind, domain_bind] at h
  obtain ⟨p, hp, h⟩ := h
  obtain ⟨_, s₄, hsave, h⟩ := Txn.bind_ok.mp h
  obtain ⟨_, s₅, hdrop, h⟩ := Txn.bind_ok.mp h
  obtain ⟨_, s₆, hsubmit, rest⟩ := Txn.bind_ok.mp h
  have hsubmitted : p.status = .submitted := by
    cases existing with
    | some q => exact (Proposal.resubmit_ok hp).status_eq
    | none => exact (Proposal.submit_ok hp).2
  have hdropped : Unwaiting s₄ s₅ := Txn.Moves.of_ok hdrop
  have hstatus : s₅.proposalStatus p.id = some .submitted := by
    rw [hdropped.proposals, (saveProposal_ok hsave).1, if_pos rfl, hsubmitted]
  have hloop := Txn.forM_of_inv (R := StrandsNone) (fun t _ s u s' => submitTask_ok) hsubmit hstatus
  refine trans_of StrandsNone (strandsNone_saveProposal (by rw [hsubmitted]; rfl) hsave)
    (trans_of StrandsNone (fun t ht => hdropped.stranded ht) (trans_of StrandsNone hloop.2 ?_))
  exact Txn.Moves.of_ok rest

instance strandsNone_retryHeld {submission : Submission} {existing : Proposal} {now : Seconds} :
    Txn.Moves StrandsNone (retryHeld submission existing now) := by
  refine ⟨fun s id s' h => ?_⟩
  simp only [retryHeld, Txn.read_bind, domain_bind, Txn.ensure_bind] at h
  obtain ⟨_, _, _, retried, hretry, h⟩ := h
  obtain ⟨_, s₁, hsave, rest⟩ := Txn.bind_ok.mp h
  have hsubmitted : retried.status = .submitted := (Proposal.retry_ok hretry).1.status_eq
  exact trans_of StrandsNone (strandsNone_saveProposal (by rw [hsubmitted]; rfl) hsave)
    (Txn.Moves.of_ok rest)

/-! ## Every operation -/

instance unwaiting_applyAction {action : PlanReviewAction} :
    Txn.Moves Unwaiting (applyAction action) := by
  cases action <;> (unfold applyAction; infer_instance)

instance unwaiting_reviseSent {id : ProposalId} : Txn.Moves Unwaiting (reviseSent id) :=
  unwaiting_reviseDelivery fun _ => rfl

instance unwaiting_reviseLost {id : ProposalId} {planner : Option PlannerId} :
    Txn.Moves Unwaiting (reviseLost id planner) :=
  unwaiting_reviseDelivery fun _ => rfl

instance unwaiting_plannerUnresponsive {id : ProposalId} {now : Seconds} :
    Txn.Moves Unwaiting (plannerUnresponsive id now) :=
  unwaiting_reviseDelivery fun _ => rfl

instance strandsNone_applyDecision {job : PlanReviewJob} {apply : PlanReviewApply} {now : Seconds} :
    Txn.Moves StrandsNone (applyDecision job apply now) := by
  unfold applyDecision
  split <;> infer_instance

instance strandsNone_applyAnswer {id : ProposalId} {now : Seconds} {answer : PlanAnswer} :
    Txn.Moves StrandsNone (applyAnswer id now answer) := by
  cases answer <;> infer_instance

theorem strandsNone_planOp (op : PlanOp) : Txn.Moves StrandsNone op.exec := by
  cases op <;> unfold PlanOp.exec <;> infer_instance

theorem queue_strandsNone (s : Store) (op : Op) : StrandsNone s (queue.next s op) := by
  cases op with
  | task op => exact Txn.Moves.commit (strandsNone_of_unwaiting (h := unwaiting_taskOp op)) s
  | run op => exact Txn.Moves.commit (strandsNone_of_unwaiting (h := unwaiting_runOp op)) s
  | ask op => exact Txn.Moves.commit (strandsNone_of_unwaiting (h := unwaiting_askOp op)) s
  | plan op => exact (strandsNone_planOp op).commit s

/-- In no state of the queue is a task stranded. -/
theorem not_stranded (ops : List Op) (t : TaskId) : ¬(queue.run ops).Stranded t := by
  intro ht
  have hinit : Store.init.Stranded t := Machine.moves queue_strandsNone Store.init ops ht
  cases hinit.submitted

/-- A submitted task is a member of a proposal that plan review will look at, holds for a person, or sent
back to its planner; and a proposal that ended has no submitted member. -/
theorem submitted_tasks_under_review (ops : List Op) :
    (∀ t, (queue.run ops).taskStatus t = some .submitted →
      ∃ p st, (queue.run ops).proposalOf t = some p ∧
        (queue.run ops).proposalStatus p = some st ∧ (st = .submitted ∨ st = .revising) ∧
        (st = .submitted → (queue.run ops).isReviewCandidate p = true ∨
          ((queue.run ops).hold p).isSome = true)) ∧
    ∀ p st, (queue.run ops).proposalStatus p = some st → st = .accepted ∨ st = .canceled →
      ∀ t, (queue.run ops).proposalOf t = some p →
        (queue.run ops).taskStatus t ≠ some .submitted := by
  have hnone := not_stranded ops
  generalize queue.run ops = s at hnone ⊢
  refine ⟨fun t ht => ?_, fun p st hst hended t hp ht => ?_⟩
  · -- Not adrift, it is in an active proposal.
    by_contra hcon
    refine hnone t ⟨ht, fun {p st} hp hst => ?_⟩
    by_contra hactive
    refine hcon ⟨p, st, hp, hst, ?_, ?_⟩
    · revert hactive
      cases st <;> simp [ProposalStatus.isActive]
    · rintro rfl
      obtain ⟨row, hrow, hsubmitted⟩ := Option.map_eq_some_iff.mp hst
      cases hhold : row.reviewHold with
      | none =>
          left
          obtain ⟨trow, htrow, hmember⟩ := Option.bind_eq_some_iff.mp hp
          rw [Store.taskStatus_of_get htrow, Option.some.injEq] at ht
          have hmine : s.tasks.any (fun _ r => r.proposalId = some p
              && r.task.status = .submitted) = true :=
            Table.any_iff.mpr ⟨t, trow, htrow, by simp [hmember, ht]⟩
          simp [Store.isReviewCandidate, Store.reviewable, hrow, hsubmitted, hhold, hmine]
      | some hold => exact .inr (by simp [Store.hold, hrow, hhold])
  · refine hnone t ⟨ht, fun {q st'} hq hst' => ?_⟩
    obtain rfl : p = q := Option.some.inj (hp.symm.trans hq)
    obtain rfl : st = st' := Option.some.inj (hst.symm.trans hst')
    rcases hended with rfl | rfl <;> rfl

end Dagq
