/-
# Dagq.Domain.Event -- the event log and what is read back from it.

Every write of the queue appends events in its own transaction.  The log is the only memory of why a
run waits, how often it was resumed and where its review stands, so the readers at the end of this
file decide what a supervisor may do next.  An event keeps the part of its payload that some reader
or rule looks at; its id is its position in the log.
-/
import Dagq.Domain.ClaimDefer
import Dagq.Domain.Run

namespace Dagq

/-- Why a run failed, waits for a session or was interrupted, or why a step of it went wrong. -/
inductive ReasonCode
  | sessionExitCode | sessionKilled | exitTimeout | heartbeatLost | wrapperFailed | leaseLost
  | receiptMissing | receiptInvalid | workerFailed | evidenceFailed | evidenceMissing
  | commitMismatch | worktreeDirty | scopeViolation | rebaseConflict | rebaseEmpty
  | rebaseInProgress | migrationNumberTaken | verificationFailed | backendTimeout | backendFailed
  | jobFailed | sentBack | cancelled | triageResume | resumeExhausted | orphaned | pushFailed
  | gitFailed | other
  deriving DecidableEq

/-- What a run's review decided. -/
inductive ReviewDecision
  | pass | revise | concern
  deriving DecidableEq

/-- What a plan review decided: `pass` readies the proposal, `revise` sends it back to its planner,
`concern` waits for a person. -/
inductive PlanReviewDecision
  | pass | revise | concern
  deriving DecidableEq

/-- What a recovery round does to a `failed` or `interrupted` run. -/
inductive TriageAction
  | retry
  | retryInherit (branch : Option String) (head : CommitSha)
  | resume (instruction : String)
  | wait (recheckAt : Seconds)
  | ask (askId : AskId)

namespace TriageAction

/-- Whether the action readies the task. -/
def retries : TriageAction → Bool
  | .retry | .retryInherit .. => true
  | _ => false

/-- Whether the next run carries this run's branch over. -/
def inherits : TriageAction → Bool
  | .retryInherit .. => true
  | _ => false

/-- What a resumed session is told. -/
def instruction? : TriageAction → Option String
  | .resume instruction => some instruction
  | _ => none

end TriageAction

/-- Where a draft the runtime or a job registered came from. -/
inductive DraftOrigin
  | followUp | goalGap
  deriving DecidableEq

/-- What a supervisor or a landing records about a run outside the queue's own transitions
(`record_runtime_event`): the steps of its review and its landing.  `other` is any kind that no
reader below looks at. -/
inductive RuntimeEvent
  | reviewStarted
  | reviewFinished (verdict : ReviewDecision)
  | reviewFailed
  | reviseRequested
  | reviseUnsent
  | reviseFinished
  | conflictPrecheck (code : Option ReasonCode) (requested : Bool)
  | conflictResolved
  | exitRequested
  | landingQueued
  | landingRecheckHeld (code : ReasonCode)
  | integrationApproved
  | integrationReceipt (commit : CommitSha)
  | integrationRebased (commit : CommitSha)
  | triageFailed
  | other (kind : String)

/-- The two kinds of event the queue's rules hang on: the verdict of a validation, and the begin of a
landing with the status the run had. -/
inductive Milestone
  | validationFinished (accepted : Bool) (resultCommit : Option CommitSha) (status : RunStatus)
  | integrationStarted (main : CommitSha) (previousStatus : RunStatus)

/-- Every other kind, with the part of its payload that something reads. -/
inductive Notice
  | taskCreated (goalId : Option GoalId)
  | taskStatusChanged (source target : TaskStatus) (duplicateOf : Option TaskId)
  | reviewBypassed (source : TaskStatus)
  | dependencyAdded (predecessorId : TaskId)
  | dependencyRemoved (predecessorId : TaskId)
  | goalDependencyAdded (goalId : GoalId)
  | goalDependencyRemoved (goalId : GoalId)
  | taskGoalChanged (source target : Option GoalId)
  | taskPathsChanged (source target : List String)
  | taskPriorityChanged (source target : Priority)
  | taskEdited
  | goalCreated
  | goalUpdated
  | goalClosed (verdict : GoalVerdict)
  | goalStatusChanged (source target : GoalStatus)
  | observation
  /-- Recorded at `at_`, the second of the pass that judged the task. -/
  | claimDeferral (at_ : Seconds) (event : DeferralEvent)
  | runClaimed
  | leaseAcquired (reason : String) (previousToken : Option Token)
  | leaseReleased (reason : String)
  | runAdopted (previousToken token : Token)
  | runtimeError (leaseReleased : Bool)
  | runPlanned (plan : RunPlan)
  | workspaceCreated (workspaceId : String)
  | wrapperStarted (pid : Pid)
  | agentStarted (pid : Pid)
  | sessionExited (exitCode : Int)
  | runRecovered (previousStatus status : RunStatus) (leaseDeleted : Bool)
  | supervisionFinished (status : RunStatus) (exitCode : Option Int)
  | landingDecided (code : ReasonCode) (status : RunStatus)
  | landingRecheckFailed (code : ReasonCode) (status : RunStatus)
  | scopeViolation (paths : List String)
  | evidenceMissing (checks : List EvidenceCheck)
  | resumeStarted (attempt : Nat) (counted : Bool) (main : CommitSha)
  | autoRepaired (repair : String)
  | resumeSkipped (head main : CommitSha) (approved : Bool) (status : RunStatus)
  | resumeFinished (status : RunStatus)
  | integrationDeferred (code : ReasonCode) (status : RunStatus)
  | integrationFailed (status : RunStatus)
  | integrationError (code : ReasonCode) (status : RunStatus)
  | runIntegrated (commit mainBefore : CommitSha)
  | cleanupFailed
  | workspaceClosed (workspaceId : Option String)
  | recoveryRequested
  | triageStarted (attempt : Nat) (status : RunStatus)
  | triageFinished (action : TriageAction) (status : RunStatus)
  | triageDecided (askId : AskId) (answer : String) (again : Bool) (status : RunStatus)
  | taskSubmitted (proposalId : ProposalId)
  | goalSubmitted (proposalId : ProposalId)
  | proposalResubmitted (proposalId : ProposalId)
  | approveWithheld (proposalId : ProposalId) (goalId : GoalId)
  | proposalWithdrawn (proposalId : ProposalId) (source : ProposalStatus)
  | proposalSettled (proposalId : ProposalId) (status : ProposalStatus)
  | taskCanceledAsDuplicate (duplicateOf : TaskId)
  | taskReopened (proposalId reviewedProposalId : ProposalId)
  | planReviewStarted (proposalId : ProposalId) (planReviewId : PlanReviewId) (attempt : Nat)
  | planReviewFinished (proposalId : ProposalId) (planReviewId : PlanReviewId)
      (decision : PlanReviewDecision) (askId : Option AskId)
  | planReviewDiscarded (proposalId : ProposalId) (planReviewId : PlanReviewId)
      (edited : List TaskId)
  | planReviewFailed (proposalId : ProposalId) (planReviewId : PlanReviewId)
  | planDecided (proposalId : ProposalId) (askId : AskId) (status : ProposalStatus)
  | planReviseSent (proposalId : ProposalId)
  | planReviseLost (proposalId : ProposalId)
  | plannerUnresponsive (proposalId : ProposalId)
  | draftAdopted (origin : DraftOrigin) (byPerson : Bool) (depth : Nat)
  | plannerAnswerClosed (askId : AskId)
  | askOpened (askId : AskId) (kind : AskKind)
  | askAnswered (askId : AskId) (kind : AskKind) (runtimeClosed : Bool)
  | askClosed (askId : AskId) (kind : AskKind)
  | askDelivered (askId : AskId)
  | askUpdated (askId : AskId) (kind : AskKind)

/-- The payload of an event, under its kind. -/
inductive EventBody
  | milestone (milestone : Milestone)
  | runtime (event : RuntimeEvent)
  | notice (notice : Notice)

/-- One row of the log: what it is about and what happened. -/
structure Event where
  taskId : Option TaskId := none
  goalId : Option GoalId := none
  runId : Option RunId := none
  body : EventBody

/-! ## Resumes -/

/-- How many times the supervisor starts a counted resume of one run. -/
def maxResumeAttempts : Nat := 3

/-- How many resumes of one run are started while it was parked only by a rebase conflict after its
review passed. -/
def conflictOnlyResumeLimit : Nat := 5

/-- What the events so far say about the run: whether its landing was approved, whether its latest
review passed, whether the latest parking event is a rebase conflict, and whether the landing recheck
found it. -/
structure History where
  approved : Bool := false
  passed : Bool := false
  conflict : Bool := false
  rechecked : Bool := false

namespace History

/-- One more event.  The events that park a run for a session, or decide what it resumes with,
settle `conflict` and `rechecked` anew. -/
def see (history : History) : EventBody → History
  | .runtime .integrationApproved => { history with approved := true }
  | .runtime (.reviewFinished verdict) => { history with passed := verdict = .pass }
  | .notice (.integrationDeferred code _) =>
      { history with conflict := code = .rebaseConflict, rechecked := false }
  | .notice (.landingRecheckFailed code _) =>
      { history with conflict := code = .rebaseConflict, rechecked := true }
  | .notice (.integrationError ..) | .notice (.evidenceMissing ..) | .notice (.scopeViolation ..)
  | .notice (.landingDecided ..) | .notice (.triageFinished ..) | .notice (.triageDecided ..) =>
      { history with conflict := false, rechecked := false }
  | _ => history

/-- What a log says, oldest event first. -/
def of (events : List EventBody) : History := events.foldl see {}

/-- The run waits for a session only because it conflicts with main. -/
def conflictOnly (history : History) : Bool :=
  history.conflict && (history.approved || history.passed || history.rechecked)

/-- `conflictOnly` with a review that passed or an approved landing. -/
def reviewedConflict (history : History) : Bool :=
  history.conflict && (history.approved || history.passed)

end History

/-- The resumes of one run, split by whether each counts toward the limit. -/
structure ResumeCount where
  counted : Nat := 0
  conflictOnly : Nat := 0

namespace ResumeCount

/-- Counting resumes event by event, next to the history each is judged by. -/
def see (state : History × ResumeCount) (event : EventBody) : History × ResumeCount :=
  let count := match event with
    | .notice (.resumeStarted ..) =>
        if state.1.conflictOnly then { state.2 with conflictOnly := state.2.conflictOnly + 1 }
        else { state.2 with counted := state.2.counted + 1 }
    | _ => state.2
  (state.1.see event, count)

def of (events : List EventBody) : ResumeCount := (events.foldl see ({}, {})).2

/-- Every resume started, counted or not. -/
def total (count : ResumeCount) : Nat := count.counted + count.conflictOnly

/-- No further resume starts. -/
def exhausted (count : ResumeCount) : Bool :=
  maxResumeAttempts ≤ count.counted || conflictOnlyResumeLimit ≤ count.conflictOnly

/-- One more resume, counted or not. -/
def add (count : ResumeCount) (counted : Bool) : ResumeCount :=
  if counted = true then { count with counted := count.counted + 1 }
  else { count with conflictOnly := count.conflictOnly + 1 }

theorem foldl_see (events : List EventBody) :
    events.foldl see ({}, {}) = (History.of events, of events) := by
  refine Prod.ext ?_ rfl
  suffices h : ∀ state, (events.foldl see state).1 = events.foldl History.see state.1 from h _
  induction events with
  | nil => exact fun _ => rfl
  | cons e events ih => exact fun state => ih (see state e)

theorem of_append (events : List EventBody) (e : EventBody) :
    of (events ++ [e]) = (see (History.of events, of events) e).2 := by
  rw [of, List.foldl_append, foldl_see]
  rfl

/-- A resume is judged by what is on record before it. -/
theorem of_resumeStarted (events : List EventBody) {attempt : Nat} {counted : Bool} {main : CommitSha} :
    of (events ++ [.notice (.resumeStarted attempt counted main)])
      = (of events).add (!(History.of events).conflictOnly) := by
  rw [of_append, add]
  cases h : (History.of events).conflictOnly <;> simp [see, h]

end ResumeCount

/-- The automatic retry that carried a run's branch over. -/
def EventBody.isInheritRetry : EventBody → Bool
  | .notice (.triageFinished (.retryInherit ..) _) => true
  | _ => false

/-- Whether a run whose resumes are used up is retried with its branch carried over. -/
def inheritsOnExhaustion (runEvents taskEvents : List EventBody) : Bool :=
  (History.of runEvents).reviewedConflict && !taskEvents.any EventBody.isInheritRetry

/-! ## Recovery rounds -/

/-- Where the recovery of a `failed` or `interrupted` run stands. -/
inductive TriageState
  | pending | waiting (until_ : Seconds) | failed | finished
  deriving DecidableEq

/-- Whether the supervisor starts the recovery job of the run at `now`. -/
def TriageState.takes (state : TriageState) (now : Seconds) : Bool :=
  match state with
  | .pending => true
  | .waiting until_ => until_ ≤ now
  | _ => false

/-- What one event says about the recovery; a `triage_decided` counts only when it hands the run back
to the job. -/
def EventBody.triageState? : EventBody → Option TriageState
  | .notice (.resumeStarted ..) => some .pending
  | .notice (.triageFinished (.wait recheckAt) _) => some (.waiting recheckAt)
  | .notice (.triageFinished ..) => some .finished
  | .runtime .triageFailed => some .failed
  | .notice (.triageDecided _ _ true _) => some .pending
  | _ => none

/-- The state the latest such event left the recovery in. -/
def triageState (events : List EventBody) : TriageState :=
  (events.reverse.findSome? EventBody.triageState?).getD .pending

/-! ## Claim deferrals -/

/-- The kinds that say where a task's deferral stands; a claim of the task ends whatever came before
it. -/
def EventBody.isDeferralKind : EventBody → Bool
  | .notice (.claimDeferral ..) | .notice .runClaimed => true
  | _ => false

/-- The deferral the latest such event of a task leaves in place: an open one, or one that expired and
whose task was not claimed since. -/
def EventBody.deferral? : EventBody → Option Deferral
  | .notice (.claimDeferral at_ (.deferred ..)) => some { since := at_ }
  | .notice (.claimDeferral at_ (.ended .expired _)) => some { since := at_, expired := true }
  | _ => none

/-- Per task, its newest event of one of `kinds`. -/
def latestTaskEvents (kinds : EventBody → Bool) : List Event → List Event
  | [] => []
  | e :: events =>
      if e.taskId.isSome && kinds e.body
          && !events.any (fun later => later.taskId = e.taskId && kinds later.body) then
        e :: latestTaskEvents kinds events
      else latestTaskEvents kinds events

/-! ## Where the review of a waiting run stands -/

/-- Whether the event moves the review of a run awaiting integration along. -/
def EventBody.movesReview : EventBody → Bool
  | .milestone (.validationFinished ..) => true
  | .runtime event =>
      match event with
      | .reviewStarted | .reviewFinished _ | .reviseRequested | .reviseUnsent | .reviseFinished
      | .conflictPrecheck .. | .conflictResolved => true
      | _ => false
  | _ => false

/-- The latest validation on record, if any: the commit it accepted, or none when it refused. -/
def lastValidation (events : List EventBody) : Option (Option CommitSha) :=
  events.reverse.findSome? fun
    | .milestone (.validationFinished accepted commit _) =>
        some (if accepted = true then commit else none)
    | _ => none

/-- The status a run's latest landing began from. -/
def lastLandingSource (events : List EventBody) : Option RunStatus :=
  events.reverse.findSome? fun
    | .milestone (.integrationStarted _ previousStatus) => some previousStatus
    | _ => none

/-! ## Statistics -/

/-- One task canceled as a duplicate. -/
structure DuplicateCancel where
  taskId : TaskId
  duplicateOf : TaskId
  deriving DecidableEq

structure DuplicateCancels where
  count : Nat := 0
  tasks : List DuplicateCancel := []

/-- The `task_status_changed` events with `after < id ≤ upto` that canceled a task as a duplicate,
whose task `counts` accepts. -/
def duplicateCancels (events : List Event) (after upto : Nat) (counts : Option TaskId → Bool) :
    DuplicateCancels :=
  let window := (events.zipIdx 1).filter fun e =>
    decide (after < e.2) && decide (e.2 ≤ upto) && counts e.1.taskId
  let tasks := window.filterMap fun e => match e.1.taskId, e.1.body with
    | some taskId, .notice (.taskStatusChanged _ _ (some duplicateOf)) =>
        some { taskId := taskId, duplicateOf := duplicateOf }
    | _, _ => none
  { count := tasks.length, tasks := tasks }

/-! ## Appending

Appending one event changes a reader of the latest event in one way; only a milestone changes what the
latest validation and the latest landing are read off. -/

section Append

variable {events : List EventBody}

@[simp] theorem lastValidation_notice {notice : Notice} :
    lastValidation (events ++ [.notice notice]) = lastValidation events := by
  unfold lastValidation
  rw [List.reverse_append]
  rfl

@[simp] theorem lastLandingSource_notice {notice : Notice} :
    lastLandingSource (events ++ [.notice notice]) = lastLandingSource events := by
  unfold lastLandingSource
  rw [List.reverse_append]
  rfl

@[simp] theorem lastValidation_runtime {event : RuntimeEvent} :
    lastValidation (events ++ [.runtime event]) = lastValidation events := by
  unfold lastValidation
  rw [List.reverse_append]
  rfl

@[simp] theorem lastLandingSource_runtime {event : RuntimeEvent} :
    lastLandingSource (events ++ [.runtime event]) = lastLandingSource events := by
  unfold lastLandingSource
  rw [List.reverse_append]
  rfl

@[simp] theorem lastValidation_milestone {milestone : Milestone} :
    lastValidation (events ++ [.milestone milestone]) =
      match milestone with
      | .validationFinished accepted commit _ => some (if accepted = true then commit else none)
      | .integrationStarted .. => lastValidation events := by
  unfold lastValidation
  rw [List.reverse_append]
  cases milestone <;> rfl

@[simp] theorem lastLandingSource_milestone {milestone : Milestone} :
    lastLandingSource (events ++ [.milestone milestone]) =
      match milestone with
      | .integrationStarted _ previousStatus => some previousStatus
      | .validationFinished .. => lastLandingSource events := by
  unfold lastLandingSource
  rw [List.reverse_append]
  cases milestone <;> rfl

end Append

end Dagq
