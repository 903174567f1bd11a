/-
# Dagq.Queue.Op -- the operations of the queue, and the machine that takes them one at a time.

Every operation is one transaction of the database, so a history of the queue is a list of operations
in commit order, whoever issued them: a person at the command line, any number of supervisors, manual
landings, plan reviewers and session wrappers.  A refused operation leaves the store as it was.  What
an operation reads from outside (the clock, which processes live, a fresh run id, the verdict of a
check) is part of its label.
-/
import Dagq.Store.Claims
import Dagq.Store.PlanReviews
import Dagq.Lib.Machine

namespace Dagq

open Lib

/-! ## Operations -/

/-- The transitions a person asks for (`transition`): a draft enters and leaves `submitted` through its
proposal only. -/
inductive HandAction
  | ready | draft | cancel | bypassReview
  deriving DecidableEq

def HandAction.action : HandAction → TaskAction
  | .ready => .ready
  | .draft => .draft
  | .cancel => .cancel
  | .bypassReview => .bypassReview

/-- Operations on tasks, goals and the wait graph. -/
inductive TaskOp
  | add (new : NewTask)
  | addDependency (taskId predecessorId : TaskId)
  | addGoalDependency (taskId : TaskId) (goalId : GoalId)
  | removeDependency (taskId predecessorId : TaskId)
  | removeGoalDependency (taskId : TaskId) (goalId : GoalId)
  | transition (taskId : TaskId) (action : HandAction)
  | cancelAsDuplicate (taskId duplicateOf : TaskId)
  | setGoal (taskId : TaskId) (goalId : Option GoalId)
  | setPaths (taskId : TaskId) (paths : List String)
  | setPriority (taskId : TaskId) (priority : Priority)
  | edit (taskId : TaskId) (edit : TaskEdit)
  | addGoal (new : NewGoal)
  | editGoal (goalId : GoalId) (edit : GoalEdit)
  | closeGoal (goalId : GoalId) (verdict : GoalVerdict)
  | readyGoal (goalId : GoalId)
  | note (target : NoteTarget)
  | recordDraftOrigin (taskId : TaskId) (origin : DraftOrigin)
  | setFollowUpDepth (taskId : TaskId) (depth : Nat)

def TaskOp.exec : TaskOp → Tx Unit
  | .add new => do let _ ← insertTask new
  | .addDependency taskId predecessorId => insertDependency taskId predecessorId
  | .addGoalDependency taskId goalId => insertGoalDependency taskId goalId
  | .removeDependency taskId predecessorId => Dagq.removeDependency taskId predecessorId
  | .removeGoalDependency taskId goalId => Dagq.removeGoalDependency taskId goalId
  | .transition taskId action => do let _ ← transitionTask taskId action.action
  | .cancelAsDuplicate taskId duplicateOf => do let _ ← Dagq.cancelAsDuplicate taskId duplicateOf
  | .setGoal taskId goalId => Dagq.setGoal taskId goalId
  | .setPaths taskId paths => Dagq.setPaths taskId paths
  | .setPriority taskId priority => Dagq.setPriority taskId priority
  | .edit taskId change => editTask taskId change
  | .addGoal new => do let _ ← Dagq.addGoal new
  | .editGoal goalId change => Dagq.editGoal goalId change
  | .closeGoal goalId verdict => Dagq.closeGoal goalId verdict
  | .readyGoal goalId => Dagq.readyGoal goalId
  | .note target => addNote target
  | .recordDraftOrigin taskId origin => Dagq.recordDraftOrigin taskId origin
  | .setFollowUpDepth taskId depth => Dagq.setFollowUpDepth taskId depth

/-- Where the supervisor ends a resume that is over; `finish_resume` itself would take
`awaitingIntegration` too, which no caller passes. -/
inductive ResumeEnd
  | validating | failed
  deriving DecidableEq

def ResumeEnd.status : ResumeEnd → RunStatus
  | .validating => .validating
  | .failed => .failed

/-- Operations on runs, leases and processes. -/
inductive RunOp
  | registerSupervisor (token : Token) (pid : Pid) (now : Seconds)
  | deregisterSupervisor (token : Token)
  | heartbeat (token : Token) (now : Seconds)
  | claimNext (runId : RunId) (baseCommit : CommitSha) (order : List TaskId)
  | claimForSupervisor (runId : RunId) (baseCommit : CommitSha) (order : List TaskId) (token : Token)
      (pid : Pid) (now : Seconds)
  | planRun (id : RunId) (token : Token) (now : Seconds) (plan : RunPlan)
  | workspaceCreated (id : RunId) (token : Token) (now : Seconds) (workspaceId : String)
  | registerWrapper (id : RunId) (token : Token) (pid : Pid) (now : Seconds)
  | registerAgent (id : RunId) (wrapperPid agentPid : Pid) (now : Seconds)
  | registerResumeWrapper (id : RunId) (token : Token) (pid : Pid) (now : Seconds)
  | registerResumeAgent (id : RunId) (wrapperPid agentPid : Pid) (now : Seconds)
  | heartbeatWrapper (id : RunId) (pid : Pid) (now : Seconds)
  | wrapperExited (id : RunId) (pid : Pid) (exitCode : Int) (now : Seconds)
  | finishSupervision (id : RunId) (token : Token) (now : Seconds)
  | finishSupervisionLive (id : RunId) (token : Token) (now : Seconds)
  | renewLease (id : RunId) (token : Token) (now : Seconds)
  | releaseLease (id : RunId) (token : Token)
  | adoptRun (id : RunId) (previousToken token : Token) (pid : Pid) (alive : Pid → Bool)
      (now : Seconds)
  | abandonRun (id : RunId) (token : Token) (message : String)
  | recordRuntimeError (id : RunId) (message : String)
  | recordRuntimeEvent (id : RunId) (event : RuntimeEvent)
  | recoverRun (id : RunId) (checkedProcesses : Nat) (now : Seconds)
  | restartValidation (id : RunId) (token : Token) (now : Seconds)
  | finishValidation (id : RunId) (token : Token) (now : Seconds) (validation : Validation)
  | decideLanding (id : RunId) (status : RunStatus) (code : ReasonCode) (reason : String)
  | parkRechecked (id : RunId) (token : Option Token) (code : ReasonCode) (reason : String)
  | beginIntegration (id : RunId) (token : Token) (pid : Pid) (now : Seconds) (main : CommitSha)
  | deferIntegration (id : RunId) (token : Token) (now : Seconds) (code : ReasonCode)
      (reason : String)
  | failIntegration (id : RunId) (token : Token) (now : Seconds) (reason : String)
  | abortIntegration (id : RunId) (token : Token) (now : Seconds) (revertTo : RunStatus)
      (code : ReasonCode) (message : String)
  | finishIntegration (id : RunId) (token : Token) (now : Seconds) (commit mainBefore : CommitSha)
  | recordCleanupFailure (id : RunId) (message : String)
  | beginResume (id : RunId) (token : Token) (pid : Pid) (alive : Pid → Bool) (now : Seconds)
      (main : CommitSha)
  | skipResume (id : RunId) (token : Token) (pid : Pid) (alive : Pid → Bool) (now : Seconds)
      (head main : CommitSha) (approved : Bool)
  | finishResume (id : RunId) (token : Token) (now : Seconds) (ended : Option ResumeEnd)
      (reason : Option String) (keepLease : Bool)
  | workspaceClosed (id : RunId) (token : Token) (now : Seconds)
  | cleanupFailed (id : RunId) (token : Token) (now : Seconds) (message : String)
  | recordWorkspaceClosed (id : RunId) (workspaceId : String) (now : Seconds)
  | beginTriage (id : RunId) (token : Token) (pid : Pid) (alive : Pid → Bool) (now : Seconds)
      (request : Bool)
  | finishTriage (id : RunId) (token : Token) (now : Seconds) (action : TriageAction)
      (also : List RuntimeEvent)
  | exhaustResumes (id : RunId) (exhaustion : Exhaustion) (reason : String) (alive : Pid → Bool)
      (now : Seconds)
  | decideTriage (id : RunId) (askId : AskId) (answer reason : String) (alive : Pid → Bool)
      (now : Seconds)

def RunOp.exec : RunOp → Tx Unit
  | .registerSupervisor token pid now => Dagq.registerSupervisor token pid now
  | .deregisterSupervisor token => Dagq.deregisterSupervisor token
  | .heartbeat token now => Dagq.heartbeat token now
  | .claimNext runId baseCommit order => do let _ ← claimTask runId baseCommit order
  | .claimForSupervisor runId baseCommit order token pid now =>
      Dagq.claimForSupervisor runId baseCommit order token pid now
  | .planRun id token now plan => Dagq.planRun id token now plan
  | .workspaceCreated id token now workspaceId => Dagq.workspaceCreated id token now workspaceId
  | .registerWrapper id token pid now => Dagq.registerWrapper id token pid now
  | .registerAgent id wrapperPid agentPid now => Dagq.registerAgent id wrapperPid agentPid now
  | .registerResumeWrapper id token pid now => Dagq.registerResumeWrapper id token pid now
  | .registerResumeAgent id wrapperPid agentPid now =>
      Dagq.registerResumeAgent id wrapperPid agentPid now
  | .heartbeatWrapper id pid now => Dagq.heartbeatWrapper id pid now
  | .wrapperExited id pid exitCode now => Dagq.wrapperExited id pid exitCode now
  | .finishSupervision id token now => Dagq.finishSupervision id token now
  | .finishSupervisionLive id token now => Dagq.finishSupervisionLive id token now
  | .renewLease id token now => Dagq.renewLease id token now
  | .releaseLease id token => Dagq.releaseLease id token
  | .adoptRun id previousToken token pid alive now =>
      Dagq.adoptRun id previousToken token pid alive now
  | .abandonRun id token message => Dagq.abandonRun id token message
  | .recordRuntimeError id message => Dagq.recordRuntimeError id message
  | .recordRuntimeEvent id event => Dagq.recordRuntimeEvent id event
  | .recoverRun id checkedProcesses now => do let _ ← Dagq.recoverRun id checkedProcesses now
  | .restartValidation id token now => Dagq.restartValidation id token now
  | .finishValidation id token now validation => do
      let _ ← Dagq.finishValidation id token now validation
  | .decideLanding id status code reason => Dagq.decideLanding id status code reason
  | .parkRechecked id token code reason => Dagq.parkRechecked id token code reason
  | .beginIntegration id token pid now main => do
      let _ ← Dagq.beginIntegration id token pid now main
  | .deferIntegration id token now code reason => do
      let _ ← Dagq.deferIntegration id token now code reason
  | .failIntegration id token now reason => do let _ ← Dagq.failIntegration id token now reason
  | .abortIntegration id token now revertTo code message => do
      let _ ← Dagq.abortIntegration id token now revertTo code message
  | .finishIntegration id token now commit mainBefore =>
      Dagq.finishIntegration id token now commit mainBefore
  | .recordCleanupFailure id message => Dagq.recordCleanupFailure id message
  | .beginResume id token pid alive now main => Dagq.beginResume id token pid alive now main
  | .skipResume id token pid alive now head main approved =>
      Dagq.skipResume id token pid alive now head main approved
  | .finishResume id token now ended reason keepLease =>
      Dagq.finishResume id token now (ended.map ResumeEnd.status) reason keepLease
  | .workspaceClosed id token now => Dagq.workspaceClosed id token now
  | .cleanupFailed id token now message => Dagq.cleanupFailed id token now message
  | .recordWorkspaceClosed id workspaceId now => Dagq.recordWorkspaceClosed id workspaceId now
  | .beginTriage id token pid alive now request =>
      Dagq.beginTriage id token pid alive now request
  | .finishTriage id token now action also => Dagq.finishTriage id token now action also
  | .exhaustResumes id exhaustion reason alive now =>
      Dagq.exhaustResumes id exhaustion reason alive now
  | .decideTriage id askId answer reason alive now =>
      Dagq.decideTriage id askId answer reason alive now

/-- Operations on asks. -/
inductive AskOp
  | ask (findings : FindingId → Bool) (new : NewAsk)
  | answer (id : AskId) (text answeredBy : String) (now : Seconds)
  | close (id : AskId) (now : Seconds)
  | delivered (id : AskId) (now : Seconds)
  | closePlannerAnswer (id : AskId) (now : Seconds)
  | closeRuntime (runId : RunId) (kind : AskKind) (text : String) (now : Seconds)
  | note (runId : RunId) (note : String)
  | hold (new : NewHold)
  | closeHold (reason : AskReason) (subject : Option String) (text : String) (now : Seconds)
  | openUpdate (kind : AskKind) (question : String) (options : List String) (askedBy : String)
      (now : Seconds)

def AskOp.exec : AskOp → Tx Unit
  | .ask findings new => do let _ ← Dagq.ask findings new
  | .answer id text answeredBy now => answerAs id text answeredBy now
  | .close id now => closeAsk id now
  | .delivered id now => askDelivered id now
  | .closePlannerAnswer id now => Dagq.closePlannerAnswer id now
  | .closeRuntime runId kind text now => closeRuntimeAsks runId kind text now
  | .note runId text => noteOnAsks runId text
  | .hold new => Dagq.hold new
  | .closeHold reason subject text now => closeHoldAsks reason subject text now
  | .openUpdate kind question options askedBy now => openUpdateAsk kind question options askedBy now

/-- Operations on proposals and their plan reviews. -/
inductive PlanOp
  | submit (submission : Submission) (now : Seconds)
  | approve (id : ProposalId)
  | sendBack (id : ProposalId)
  | withdraw (id : ProposalId) (now : Seconds)
  | beginReview (proposalId : ProposalId) (token : Token) (now : Seconds)
  | finishReview (job : PlanReviewJob) (token : Token) (apply : PlanReviewApply) (now : Seconds)
  | failReview (job : PlanReviewJob) (token : Token) (now : Seconds)
  | claimRevise (id : ProposalId) (now : Seconds)
  | reviseSent (id : ProposalId)
  | reviseLost (id : ProposalId) (planner : Option PlannerId)
  | plannerUnresponsive (id : ProposalId) (now : Seconds)
  | settle
  | decidePlan (askId : AskId) (now : Seconds)

def PlanOp.exec : PlanOp → Tx Unit
  | .submit submission now => do let _ ← Dagq.submit submission now
  | .approve id => Dagq.approve id
  | .sendBack id => Dagq.sendBack id
  | .withdraw id now => Dagq.withdraw id now
  | .beginReview proposalId token now => do let _ ← beginPlanReview proposalId token now
  | .finishReview job token apply now => do let _ ← finishPlanReview job token apply now
  | .failReview job token now => failPlanReview job token now
  | .claimRevise id now => Dagq.claimRevise id now
  | .reviseSent id => Dagq.reviseSent id
  | .reviseLost id planner => Dagq.reviseLost id planner
  | .plannerUnresponsive id now => Dagq.plannerUnresponsive id now
  | .settle => settleProposals
  | .decidePlan askId now => do let _ ← Dagq.decidePlan askId now

/-- An operation of the queue. -/
inductive Op
  | task (op : TaskOp)
  | run (op : RunOp)
  | ask (op : AskOp)
  | plan (op : PlanOp)

def Op.exec : Op → Tx Unit
  | .task op => op.exec
  | .run op => op.exec
  | .ask op => op.exec
  | .plan op => op.exec

/-- The task an accepted claim takes. -/
def Op.claims (s : Store) (op : Op) : Option TaskId :=
  if op.exec.accepts s = true then
    match op with
    | .run (.claimNext _ _ order) => s.nextClaim order
    | .run (.claimForSupervisor _ _ order _ _ _) => s.nextClaim order
    | _ => none
  else none

theorem Op.claims_isCandidate {s : Store} {op : Op} {t : TaskId} (h : op.claims s = some t) :
    ∃ row, s.tasks.get? t = some row ∧ s.isCandidate t row = true := by
  unfold claims at h
  split_ifs at h
  split at h
  · exact Store.nextClaim_isCandidate h
  · exact Store.nextClaim_isCandidate h
  · cases h

/-! ## The machine -/

/-- The queue: an accepted operation is committed, a refused one changes nothing. -/
def queue : Machine Store Op where
  init := .init
  next s op := op.exec.commit s

@[simp] theorem queue_next (s : Store) (op : Op) : queue.next s op = op.exec.commit s := rfl

@[simp] theorem queue_init : queue.init = .init := rfl

end Dagq
