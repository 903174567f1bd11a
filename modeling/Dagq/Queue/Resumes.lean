/-
# Dagq.Queue.Resumes -- how often one run is resumed, and what each resume counts as.

A resume is recorded by one operation, which reads the log of the run first: it goes on only with
resumes left, and writes down whether the resume counts.  Nothing recorded later changes what came
before, so a reader of the whole log classifies every resume as its own record does.
-/
import Dagq.Queue.Aside

namespace Dagq

open Lib

set_option synthInstance.maxSize 100000

/-! ## Logs of one run -/

/-- Whether the event starts a resume. -/
@[reducible] def EventBody.startsResume : EventBody → Bool
  | .notice (.resumeStarted ..) => true
  | _ => false

/-- Whether the event starts a resume recorded as counted, or as not. -/
def EventBody.resumes (counted : Bool) : EventBody → Bool
  | .notice (.resumeStarted _ flag _) => flag = counted
  | _ => false

/-- Neither limit was passed, and at most one of them was reached. -/
def ResumeCount.Within (count : ResumeCount) : Prop :=
  count.counted ≤ maxResumeAttempts ∧ count.conflictOnly ≤ conflictOnlyResumeLimit ∧
    count.total ≤ maxResumeAttempts + conflictOnlyResumeLimit - 1

/-- The log of a run whose resumes were each started with resumes left, and recorded with their number
and with what the log said at that time. -/
inductive Resumed : List EventBody → Prop
  | nil : Resumed []
  | other {events : List EventBody} {e : EventBody} : Resumed events → e.startsResume = false →
      Resumed (events ++ [e])
  | resume {events : List EventBody} {main : CommitSha} : Resumed events →
      (ResumeCount.of events).exhausted = false →
      Resumed (events ++ [.notice (.resumeStarted ((ResumeCount.of events).total + 1)
        (!(History.of events).conflictOnly) main)])

theorem ResumeCount.of_other {events : List EventBody} {e : EventBody} (h : e.startsResume = false) :
    ResumeCount.of (events ++ [e]) = ResumeCount.of events := by
  rw [of_append]
  cases e with
  | notice said =>
      cases said with
      | resumeStarted => cases h
      | _ => rfl
  | _ => rfl

theorem EventBody.resumes_other {e : EventBody} {counted : Bool} (h : e.startsResume = false) :
    e.resumes counted = false := by
  cases e with
  | notice said =>
      cases said with
      | resumeStarted => cases h
      | _ => rfl
  | _ => rfl

theorem EventBody.countP_startsResume (events : List EventBody) :
    events.countP (·.startsResume) =
      events.countP (·.resumes true) + events.countP (·.resumes false) := by
  induction events with
  | nil => rfl
  | cons e events ih =>
      rw [List.countP_cons, List.countP_cons, List.countP_cons, ih]
      cases h : e.startsResume with
      | false => simp [resumes_other h]
      | true =>
          rcases e with _ | _ | said
          · cases h
          · cases h
          · cases said with
            | resumeStarted attempt counted main =>
                -- The flag on record decides which of the two it is.
                cases counted <;> simp [resumes] <;> omega
            | _ => cases h

/-- An element of a list with one more at its end is that last one, or was there before. -/
theorem split_of_append {events pre post : List EventBody} {last e : EventBody}
    (h : events ++ [last] = pre ++ e :: post) :
    (pre = events ∧ e = last) ∨ ∃ rest, events = pre ++ e :: rest := by
  rcases List.eq_nil_or_concat' post with rfl | ⟨rest, last', rfl⟩
  · obtain ⟨rfl, he⟩ := List.append_inj' h rfl
    exact .inl ⟨rfl, (List.singleton_inj.mp he).symm⟩
  · have hsame : events ++ [last] = (pre ++ e :: rest) ++ [last'] := by
      rw [h, List.append_assoc, List.cons_append]
    exact .inr ⟨rest, (List.append_inj' hsame rfl).1⟩

namespace Resumed

variable {events : List EventBody}

/-- Every record of a resume says what the log before it says. -/
theorem recorded (h : Resumed events) {pre post : List EventBody} {attempt : Nat} {counted : Bool}
    {main : CommitSha} (hsplit : events = pre ++ .notice (.resumeStarted attempt counted main) :: post) :
    attempt = (ResumeCount.of pre).total + 1 ∧ counted = !(History.of pre).conflictOnly := by
  induction h generalizing post with
  | nil => simp at hsplit
  | other _ hother ih =>
      rcases split_of_append hsplit with ⟨_, rfl⟩ | ⟨rest, hrest⟩
      · cases hother
      · exact ih hrest
  | resume _ _ ih =>
      rcases split_of_append hsplit with ⟨rfl, he⟩ | ⟨rest, hrest⟩
      · cases he
        exact ⟨rfl, rfl⟩
      · exact ih hrest

/-- What is read off the whole log is what the records say. -/
theorem counts (h : Resumed events) :
    (ResumeCount.of events).counted = events.countP (·.resumes true) ∧
      (ResumeCount.of events).conflictOnly = events.countP (·.resumes false) := by
  induction h with
  | nil => exact ⟨rfl, rfl⟩
  | other _ hother ih =>
      rw [ResumeCount.of_other hother, List.countP_append, List.countP_append]
      simpa [EventBody.resumes_other hother] using ih
  | @resume events main _ _ ih =>
      rw [ResumeCount.of_resumeStarted, List.countP_append, List.countP_append]
      cases (History.of events).conflictOnly <;>
        simpa [ResumeCount.add, EventBody.resumes] using ih

theorem within (h : Resumed events) : (ResumeCount.of events).Within := by
  induction h with
  | nil => exact ⟨Nat.zero_le _, Nat.zero_le _, Nat.zero_le _⟩
  | other _ hother ih =>
      rw [ResumeCount.of_other hother]
      exact ih
  | @resume events main _ hleft ih =>
      -- With resumes left, one more of either kind reaches at most its own limit.
      rw [ResumeCount.of_resumeStarted]
      simp only [ResumeCount.exhausted, Bool.or_eq_false_iff, decide_eq_false_iff_not, not_le] at hleft
      simp only [ResumeCount.Within, ResumeCount.total, ResumeCount.add, maxResumeAttempts,
        conflictOnlyResumeLimit] at hleft ⊢
      split_ifs <;> simp only <;> omega

end Resumed

/-! ## Operations that start no resume -/

/-- The logs of all runs stay as `Resumed` says. -/
def KeepsResumed (s s' : Store) : Prop :=
  (∀ id, Resumed (s.runEventsOf id)) → ∀ id, Resumed (s'.runEventsOf id)

instance : IsPreorder Store KeepsResumed where
  refl _ h := h
  trans _ _ _ h₁ h₂ h := h₂ (h₁ h)

theorem KeepsResumed.of_events {s s' : Store} (h : s'.events = s.events) : KeepsResumed s s' := by
  intro hs id
  rw [Store.runEventsOf, h]
  exact hs id

theorem KeepsResumed.of_record {s : Store} {event : Event} (h : event.body.startsResume = false) :
    KeepsResumed s { s with events := s.events ++ [event] } := by
  intro hs id
  rw [Store.runEventsOf_record]
  split_ifs
  · exact (hs id).other h
  · exact hs id

theorem EventBody.startsResume_of_quiet {body : EventBody} (h : body.tells = false) :
    body.startsResume = false := by
  cases body with
  | notice said =>
      cases said with
      | resumeStarted => cases h
      | _ => rfl
  | _ => rfl

instance : Aloof KeepsResumed where
  of_aside {s s'} h := by
    obtain ⟨es, hes, hquiet⟩ := h.events
    refine trans_of KeepsResumed (b := { s with events := s.events ++ es }) ?_ (.of_events hes)
    clear h hes
    induction es generalizing s with
    | nil => exact .of_events (List.append_nil _)
    | cons e es ih =>
        obtain ⟨he, hes⟩ := List.forall_mem_cons.mp hquiet
        refine trans_of KeepsResumed
          (KeepsResumed.of_record (EventBody.startsResume_of_quiet he)) ?_
        refine trans_of KeepsResumed (ih (s := { s with events := s.events ++ [e] }) hes) ?_
        exact .of_events (List.append_cons s.events e es)

instance : GoalBlind KeepsResumed := ⟨.of_events rfl⟩

instance : StatusBound KeepsResumed := ⟨fun _ => .of_events rfl⟩

/-! ### Writes -/

/-- Everything but the log may change. -/
instance keepsResumed_write {goals : Store → Table GoalId GoalRow}
    {tasks : Store → Table TaskId TaskRow} {taskDependencies : Store → List (TaskId × TaskId)}
    {taskGoalDependencies : Store → List (TaskId × GoalId)} {runs : Store → Table RunId RunRow}
    {leases : Store → Table RunId Lease} {processes : Store → Table (RunId × ProcessRole) RunProcess}
    {supervisors : Store → Table Token Supervisor}
    {proposals : Store → Table ProposalId ProposalRow}
    {planReviews : Store → Table PlanReviewId PlanReviewRow} {asks : Store → Table AskId Ask}
    {draftOrigins : Store → Table TaskId DraftOrigin} :
    Txn.Moves KeepsResumed (Txn.write fun s => Store.mk (goals s) (tasks s) (taskDependencies s)
      (taskGoalDependencies s) (runs s) (leases s) (processes s) (supervisors s) (proposals s)
      (planReviews s) (asks s) (draftOrigins s) s.events : Tx Unit) :=
  .of_write fun _ => .of_events rfl

instance keepsResumed_record {event : Event} [h : Off event.body.startsResume] :
    Txn.Moves KeepsResumed (record event) :=
  .of_write fun _ => .of_record h.eq_false

/-! ### Operations -/

instance keepsResumed_saveTask {id : TaskId} {task : Task} :
    Txn.Moves KeepsResumed (saveTask id task) := by
  unfold saveTask
  infer_instance

instance keepsResumed_insertTaskRow {new : NewTask} :
    Txn.Moves KeepsResumed (insertTaskRow new) := by
  unfold insertTaskRow
  infer_instance

instance keepsResumed_applyTransition {taskId : TaskId} {action : TaskAction}
    {duplicateOf : Option TaskId} :
    Txn.Moves KeepsResumed (applyTransition taskId action duplicateOf) := by
  unfold applyTransition
  infer_instance

instance keepsResumed_claimTask {runId : RunId} {baseCommit : CommitSha} {order : List TaskId} :
    Txn.Moves KeepsResumed (claimTask runId baseCommit order) := by
  unfold claimTask
  infer_instance

instance keepsResumed_finishIntegration {id : RunId} {token : Token} {now : Seconds}
    {commit mainBefore : CommitSha} :
    Txn.Moves KeepsResumed (finishIntegration id token now commit mainBefore) := by
  unfold finishIntegration
  infer_instance

instance keepsResumed_triageAnswered {id : RunId} {taskId : TaskId} {ask : Option Ask}
    {answer reason : String} :
    Txn.Moves KeepsResumed (triageAnswered id taskId ask answer reason) := by
  unfold triageAnswered
  infer_instance

instance keepsResumed_finishTriage {id : RunId} {token : Token} {now : Seconds}
    {action : TriageAction} {also : List RuntimeEvent} :
    Txn.Moves KeepsResumed (finishTriage id token now action also) := by
  unfold finishTriage
  infer_instance

instance keepsResumed_decideTriage {id : RunId} {askId : AskId} {answer reason : String}
    {alive : Pid → Bool} {now : Seconds} :
    Txn.Moves KeepsResumed (decideTriage id askId answer reason alive now) := by
  unfold decideTriage
  infer_instance

instance keepsResumed_applyAction {action : PlanReviewAction} :
    Txn.Moves KeepsResumed (applyAction action) := by
  cases action <;> (unfold applyAction; infer_instance)

instance keepsResumed_applyDecision {job : PlanReviewJob} {apply : PlanReviewApply}
    {now : Seconds} : Txn.Moves KeepsResumed (applyDecision job apply now) := by
  unfold applyDecision
  split <;> infer_instance

instance keepsResumed_applyAnswer {id : ProposalId} {now : Seconds} {answer : PlanAnswer} :
    Txn.Moves KeepsResumed (applyAnswer id now answer) := by
  cases answer <;> infer_instance

instance keepsResumed_submitMembers {submission : Submission} {existing : Option Proposal}
    {now : Seconds} : Txn.Moves KeepsResumed (submitMembers submission existing now) := by
  unfold submitMembers
  infer_instance

/-- Nothing was recorded. -/
def Silent (s s' : Store) : Prop := s'.events = s.events

instance : IsPreorder Store Silent where
  refl _ := rfl
  trans _ _ _ h₁ h₂ := h₂.trans h₁

instance silent_lease {runs : Store → Table RunId RunRow} {leases : Store → Table RunId Lease}
    {processes : Store → Table (RunId × ProcessRole) RunProcess} :
    Txn.Moves Silent (Txn.write fun s =>
      { s with runs := runs s, leases := leases s, processes := processes s } : Tx Unit) :=
  .of_write fun _ => rfl

instance silent_leaseParkedRun {id : RunId} {token : Token} {pid : Pid} {alive : Pid → Bool}
    {now : Seconds} {clear : Bool} :
    Txn.Moves Silent (leaseParkedRun id token pid alive now clear) := by
  have hdelete : Txn.Moves Silent (deleteLease id) := by
    unfold deleteLease
    infer_instance
  have hinsert : Txn.Moves Silent (insertLease id { token := token, pid := pid, heartbeatAt := now }) := by
    unfold insertLease
    infer_instance
  infer_instance

/-- The operation that starts a resume. -/
instance keepsResumed_beginResume {id : RunId} {token : Token} {pid : Pid} {alive : Pid → Bool}
    {now : Seconds} {main : CommitSha} :
    Txn.Moves KeepsResumed (beginResume id token pid alive now main) := by
  refine ⟨fun s u s' h => ?_⟩
  simp only [beginResume, Txn.read_bind, Txn.found_bind, Txn.ensure_bind] at h
  obtain ⟨row, _, _, hleft, h⟩ := h
  obtain ⟨previous, s₁, hlease, h⟩ := Txn.bind_ok.mp h
  obtain ⟨_, s₂, hacquired, h⟩ := Txn.bind_ok.mp h
  obtain ⟨_, s₃, hstarted, hrest⟩ := Txn.bind_ok.mp h
  have hevents : Silent s s₁ := Txn.Moves.of_ok hlease
  obtain ⟨row₁, _, rfl⟩ := runEvent_ok.mp hacquired
  obtain ⟨row₂, _, rfl⟩ := runEvent_ok.mp hstarted
  refine trans_of KeepsResumed ?_ (Txn.Moves.of_ok hrest)
  intro hs id'
  have hsame : s₁.runEventsOf id' = s.runEventsOf id' := by
    rw [Store.runEventsOf, hevents]
    rfl
  rw [Store.runEventsOf_record, Store.runEventsOf_record, hsame]
  by_cases hid : id' = id
  · subst hid
    rw [if_pos rfl, if_pos rfl]
    -- Between the check and the record stands only the lease, which no reader of resumes looks at.
    have hacquired : Resumed (s.runEventsOf id' ++ [.notice (.leaseAcquired "resume" previous)]) :=
      (hs id').other rfl
    have hcount : ResumeCount.of (s.runEventsOf id' ++ [.notice (.leaseAcquired "resume" previous)])
        = ResumeCount.of (s.runEventsOf id') := ResumeCount.of_other rfl
    have hhistory : History.of (s.runEventsOf id' ++ [.notice (.leaseAcquired "resume" previous)])
        = History.of (s.runEventsOf id') := List.foldl_append ..
    rw [← hcount] at hleft
    have hresume := @Resumed.resume _ main hacquired hleft
    rwa [hcount, hhistory] at hresume
  · have hne : ¬some id = some id' := fun heq => hid (Option.some.inj heq).symm
    simpa [hne] using hs id'

/-! ### Every operation -/

theorem keepsResumed_taskOp (op : TaskOp) : Txn.Moves KeepsResumed op.exec := by
  cases op <;> unfold TaskOp.exec <;> infer_instance

theorem keepsResumed_runOp (op : RunOp) : Txn.Moves KeepsResumed op.exec := by
  cases op <;> unfold RunOp.exec <;> infer_instance

theorem keepsResumed_askOp (op : AskOp) : Txn.Moves KeepsResumed op.exec := by
  cases op <;> unfold AskOp.exec <;> infer_instance

theorem keepsResumed_planOp (op : PlanOp) : Txn.Moves KeepsResumed op.exec := by
  cases op <;> unfold PlanOp.exec <;> infer_instance

theorem queue_keepsResumed (s : Store) (op : Op) : KeepsResumed s (queue.next s op) := by
  cases op with
  | task op => exact (keepsResumed_taskOp op).commit s
  | run op => exact (keepsResumed_runOp op).commit s
  | ask op => exact (keepsResumed_askOp op).commit s
  | plan op => exact (keepsResumed_planOp op).commit s

theorem resumed_run (ops : List Op) (id : RunId) : Resumed ((queue.run ops).runEventsOf id) :=
  Machine.moves queue_keepsResumed queue.init ops (fun _ => .nil) id

/-- In the log of every run of every history each resume is recorded with its number, and as counted
exactly if it adds to the counted resumes of a reader of the log; what a reader of the whole log counts
is what the records say, and stays within the limits. -/
theorem resumes_counted_as_recorded (ops : List Op) (id : RunId) :
    let events := (queue.run ops).runEventsOf id
    (∀ pre post attempt counted main,
      events = pre ++ .notice (.resumeStarted attempt counted main) :: post →
        attempt = (ResumeCount.of pre).total + 1 ∧
        ResumeCount.of (pre ++ [.notice (.resumeStarted attempt counted main)])
          = (ResumeCount.of pre).add counted) ∧
    (ResumeCount.of events).counted = events.countP (·.resumes true) ∧
    (ResumeCount.of events).conflictOnly = events.countP (·.resumes false) ∧
    events.countP (·.resumes true) ≤ maxResumeAttempts ∧
    events.countP (·.resumes false) ≤ conflictOnlyResumeLimit ∧
    events.countP (·.startsResume) ≤ maxResumeAttempts + conflictOnlyResumeLimit - 1 := by
  intro events
  have hlog : Resumed events := resumed_run ops id
  obtain ⟨hcounted, hconflict⟩ := hlog.counts
  obtain ⟨hmax, hlimit, htotal⟩ := hlog.within
  refine ⟨fun pre post attempt counted main hsplit => ?_, hcounted, hconflict, hcounted ▸ hmax,
    hconflict ▸ hlimit, ?_⟩
  · obtain ⟨hattempt, hflag⟩ := hlog.recorded hsplit
    refine ⟨hattempt, ?_⟩
    rw [ResumeCount.of_resumeStarted, hflag]
  · rw [ResumeCount.total, hcounted, hconflict, ← EventBody.countP_startsResume] at htotal
    exact htotal

end Dagq
