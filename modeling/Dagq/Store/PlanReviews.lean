/-
# Dagq.Store.PlanReviews -- the plan-review job, its verdict, and the answer to its concern.

One unfinished job at a time reviews a submitted proposal.  Its verdict is applied only while the
proposal is still the submitted, unheld one it took and none of its tasks was edited meanwhile.  A
concern holds the proposal and opens an `approve_plan` ask on its first task; the answer finds the
proposal again through the task.
-/
import Dagq.Store.Proposals

namespace Dagq

open Lib

/-- A plan review under way, as its supervisor remembers it; `anchor` is the task its events and its
ask are on. -/
structure PlanReviewJob where
  id : PlanReviewId
  proposalId : ProposalId
  attempt : Nat
  anchor : TaskId
  deriving DecidableEq

/-- What a supervisor applies of a verdict. -/
structure PlanReviewApply where
  verdict : PlanReviewVerdict
  decision : PlanReviewDecision
  reviseReasons : List String
  ask : Option NewAsk

namespace Store

/-- The first task of a proposal, where its plan review events go. -/
def anchor (s : Store) (id : ProposalId) : Option TaskId := (s.members id).head?

def hold (s : Store) (id : ProposalId) : Option ReviewHold :=
  (s.proposals.get? id).bind ProposalRow.reviewHold

/-- The job's row, while it is unfinished and still `token`'s. -/
def planReviewRunning (s : Store) (job : PlanReviewJob) (token : Token) : Bool :=
  (s.planReviews.get? job.id).any fun row =>
    row.supervisorToken = token && row.finishedAt.isNone

/-- Whether the proposal is still the submitted, unheld one the job took. -/
def reviewable (s : Store) (id : ProposalId) : Bool :=
  (s.proposals.get? id).any fun row => row.status = .submitted && row.reviewHold.isNone

/-- The tasks of the proposal edited since the job started. -/
def editedDuring (s : Store) (job : PlanReviewJob) : List TaskId :=
  let sinceStart := s.events.dropWhile fun e => match e.body with
    | .notice (.planReviewStarted _ id _) => !(e.taskId = some job.anchor && id = job.id)
    | _ => true
  sorted (sinceStart.filterMap fun e => match e.body with
    | .notice .taskEdited => e.taskId.filter fun t => s.proposalOf t = some job.proposalId
    | _ => none)

/-- Submitted proposals with no hold and a submitted task. -/
def isReviewCandidate (s : Store) (id : ProposalId) : Bool :=
  s.reviewable id
    && s.tasks.any fun _ row => row.proposalId = some id && row.task.status = .submitted

end Store

/-! ## Fixes the review makes itself -/

/-- Check an action against the proposal before anything is applied. -/
def checkAction (members : List TaskId) (action : PlanReviewAction) : Tx Unit := do
  Tx.ensure (action.taskId ∈ members)
    s!"plan review may change only the tasks of the proposal, not task {action.taskId}"
  let target ← readTask action.taskId
  Tx.ensure (target.task.status = .submitted) s!"task {action.taskId} is not submitted"
  match action with
  | .addDependency taskId dependsOn => do
      Tx.domain (Task.checkNotSelf taskId dependsOn)
      let _ ← readTask dependsOn
      pure ()
  | .lowerPriority taskId priority =>
      Tx.ensure (priority.asI64 < target.task.priority.asI64)
        s!"plan review may only lower the priority of task {taskId}"
  | .cancelDuplicate taskId duplicateOf => do
      Tx.ensure (duplicateOf ≠ taskId) s!"task {taskId} cannot duplicate itself"
      let original ← readTask duplicateOf
      Tx.ensure (original.task.status ≠ .canceled)
        s!"task {duplicateOf} is canceled; task {taskId} duplicates nothing live"

/-- The priority the review lowers. -/
def lowerPriority (taskId : TaskId) (priority : Priority) : Tx Unit := do
  let row ← readTask taskId
  let task ← Tx.domain (row.task.setPriority priority)
  saveTask taskId task
  taskNotice taskId (.taskPriorityChanged row.task.priority priority)

def applyAction : PlanReviewAction → Tx Unit
  | .addDependency taskId dependsOn => insertDependency taskId dependsOn
  | .lowerPriority taskId priority => lowerPriority taskId priority
  | .cancelDuplicate taskId duplicateOf => do
      let _ ← transitionTask taskId .cancel
      taskNotice taskId (.taskCanceledAsDuplicate duplicateOf)

/-- A task canceled as a duplicate is no original of another. -/
def checkOriginals (actions : List PlanReviewAction) : Tx Unit :=
  let canceled := actions.filterMap fun
    | .cancelDuplicate taskId _ => some taskId
    | _ => none
  actions.forM fun action => match action with
    | .cancelDuplicate _ duplicateOf => Tx.ensure (duplicateOf ∉ canceled)
        s!"task {duplicateOf} is canceled as a duplicate itself; it is no original"
    | _ => pure ()

/-- The revise `reasons` wait for the supervisor to deliver them. -/
def awaitDelivery (id : ProposalId) (reasons : List String) (now : Seconds) : Tx Unit :=
  updateReview id fun row => { row with
    reviseReasons := some reasons, revisedAt := some now, reviseSentAt := none
    unresponsiveAt := none, reviewHold := none }

/-- Take a ready task out of the claim into a proposal of its own that waits for a planner. -/
def reopenTask (taskId : TaskId) (reason : String) (reviewed : ProposalId) (now : Seconds) :
    Tx Unit := do
  let id ← Txn.read fun s => s.proposals.nextId
  let reopened ← Tx.domain (Proposal.reopen id [taskId] now)
  saveProposal reopened
  let _ ← transitionTask taskId .reopen
  joinProposal taskId id
  awaitDelivery id [s!"plan review of proposal {reviewed} found that ready task {taskId} "
    ++ s!"has to change: {reason}"] now
  taskNotice taskId (.taskReopened id reviewed)

/-- `reopenTask`, for a task that is ready and in no active proposal; any other is skipped. -/
def reopen (reviewed : ProposalId) (now : Seconds) (item : Reopen) : Tx Unit := do
  let row ← Txn.read fun s => s.tasks.get? item.taskId
  let current ← Txn.read fun s => s.membership (s.proposalOf item.taskId)
  Txn.when ((row.any fun r => r.task.status = .ready) = true
      ∧ (current.any fun p => p.2.isActive) = false)
    (reopenTask item.taskId item.reason reviewed now)

/-! ## The job -/

def finishRow (id : PlanReviewId) (now : Seconds) (outcome : PlanReviewOutcome)
    (reasons : Option (List String)) : Tx Unit :=
  Txn.write fun s => { s with planReviews := s.planReviews.modify id fun row =>
    if row.finishedAt.isNone then
      { row with finishedAt := some now, outcome := some outcome, reasons := reasons }
    else row }

/-- An unfinished job whose supervisor may still work on it. -/
def Store.planReviewLive (s : Store) (token : Token) (now : Seconds) (row : PlanReviewRow) : Bool :=
  row.supervisorToken != token && (s.supervisors.get? row.supervisorToken).any fun r =>
    decide (now - r.heartbeatAt ≤ heartbeatTimeoutSecs)

/-- The row of a new job for a candidate, and its start event. -/
def startPlanReview (proposalId : ProposalId) (token : Token) (now : Seconds) :
    Tx (Option PlanReviewJob) := do
  let id ← Txn.read fun s => s.planReviews.nextId
  let counted ← Txn.read fun s => (s.planReviews.select fun _ row =>
    row.proposalId = proposalId && row.outcome != some .interrupted).length
  Txn.write fun s => { s with planReviews := s.planReviews.push id {
    proposalId := proposalId, attempt := counted + 1, supervisorToken := token
    startedAt := now } }
  let anchor ← Txn.found (.refused s!"proposal {proposalId} has no task")
    (← Txn.read fun s => s.anchor proposalId)
  taskNotice anchor (.planReviewStarted proposalId id (counted + 1))
  return some { id := id, proposalId := proposalId, attempt := counted + 1, anchor := anchor }

/-- Start a plan review of the proposal.  Another supervisor's live job keeps it from starting; the
rows of jobs whose supervisor is gone are finished even when the proposal is no candidate. -/
def beginPlanReview (proposalId : ProposalId) (token : Token) (now : Seconds) :
    Tx (Option PlanReviewJob) := do
  let unfinished ← Txn.read fun s => s.planReviews.select fun _ row => row.finishedAt.isNone
  let live ← Txn.read fun s => unfinished.any fun r => s.planReviewLive token now r.2
  Tx.takenIf (live = false)
  unfinished.forM fun r => finishRow r.1 now .interrupted none
  let candidate ← Txn.read fun s => s.isReviewCandidate proposalId
  if candidate = true then startPlanReview proposalId token now else return none

/-- A concern holds the proposal and opens its ask, or finds the open one of the same task. -/
def holdForConcern (id : ProposalId) (ask : Option NewAsk) : Tx (Option (AskId × Bool)) := do
  setHold id (some .concern)
  let ask ← Txn.found (.refused "a concern opens an approve_plan ask") ask
  Tx.domain ask.validate
  let outcome ← insertAsk (fun _ => false) ask
  return some outcome

/-- Apply the decision to the proposal. -/
def applyDecision (job : PlanReviewJob) (apply : PlanReviewApply) (now : Seconds) :
    Tx (Option (AskId × Bool)) :=
  match apply.decision with
  | .pass => do
      apply.verdict.actions.forM applyAction
      approve job.proposalId
      return none
  | .revise => do
      sendBack job.proposalId
      awaitDelivery job.proposalId apply.reviseReasons now
      return none
  | .concern => holdForConcern job.proposalId apply.ask

/-- The checks of a verdict against the proposal. -/
def checkVerdict (members : List TaskId) (apply : PlanReviewApply) : Tx Unit := do
  Txn.when (apply.decision = .pass) do
    apply.verdict.actions.forM (checkAction members)
    checkOriginals apply.verdict.actions
  apply.verdict.reopen.forM fun item => Tx.ensure (item.taskId ∉ members)
    s!"task {item.taskId} is in the proposal under review, not a ready task to reopen"

/-- Apply the verdict of a running job whose proposal is as it took it. -/
def applyVerdict (job : PlanReviewJob) (apply : PlanReviewApply) (now : Seconds) :
    Tx (Option (AskId × Bool)) := do
  let members ← Txn.read fun s => s.members job.proposalId
  checkVerdict members apply
  let asked ← applyDecision job apply now
  apply.verdict.reopen.forM (reopen job.proposalId now)
  finishRow job.id now (.decided apply.decision) (some apply.verdict.reasons)
  taskNotice job.anchor (.planReviewFinished job.proposalId job.id apply.decision
    (asked.map Prod.fst))
  return asked

/-- The job ends without its verdict being applied: a task of the proposal was edited meanwhile. -/
def discardVerdict (job : PlanReviewJob) (apply : PlanReviewApply) (edited : List TaskId)
    (now : Seconds) : Tx (Option (AskId × Bool)) := do
  finishRow job.id now .interrupted (some apply.verdict.reasons)
  taskNotice job.anchor (.planReviewDiscarded job.proposalId job.id edited)
  return none

/-- End the job with its verdict.  The ask of a concern is returned, and whether it was created. -/
def finishPlanReview (job : PlanReviewJob) (token : Token) (apply : PlanReviewApply)
    (now : Seconds) : Tx (Option (AskId × Bool)) := do
  let running ← Txn.read fun s => s.planReviewRunning job token
  let reviewable ← Txn.read fun s => s.reviewable job.proposalId
  let edited ← Txn.read fun s => s.editedDuring job
  if running = false then return none
  else if reviewable = false then do
    finishRow job.id now .interrupted (some apply.verdict.reasons)
    return none
  else if edited = [] then applyVerdict job apply now
  else discardVerdict job apply edited now

/-- The job failed: its proposal waits for a person. -/
def failPlanReview (job : PlanReviewJob) (token : Token) (now : Seconds) : Tx Unit := do
  let running ← Txn.read fun s => s.planReviewRunning job token
  let reviewable ← Txn.read fun s => s.reviewable job.proposalId
  if running = false then return ()
  else if reviewable = false then finishRow job.id now .interrupted none
  else do
    finishRow job.id now .failed none
    setHold job.proposalId (some .failed)
    taskNotice job.anchor (.planReviewFailed job.proposalId job.id)

/-- What the supervisor makes of a verdict: a `revise` of a proposal sent back too often is a
`concern`, and a concern's ask is on the job's anchor. -/
def PlanReviewJob.verdictApply (job : PlanReviewJob) (reviseCount : Nat)
    (verdict : PlanReviewVerdict) (question : String) : PlanReviewApply :=
  let decision := match verdict.verdict with
    | .revise => if maxPlanRevises ≤ reviseCount then .concern else .revise
    | decision => decision
  { verdict := verdict
    decision := decision
    reviseReasons := verdict.reasons
    ask := if decision = .concern then some {
        kind := .approvePlan, taskId := some job.anchor, question := question
        options := planOptions, askedBy := planReviewAsker, reasonCategory := .scope }
      else none }

/-! ## Delivering a revise -/

def claimRevise (id : ProposalId) (now : Seconds) : Tx Unit :=
  updateReview id fun row =>
    if row.status = .revising ∧ row.reviseSentAt.isNone then
      { row with reviseSentAt := some now }
    else row

/-- A step of a revise's delivery to a planner: what it writes to a revising proposal that is `due`, and
whether it then records the notice on the proposal's first task, once it wrote or did not. -/
def reviseDelivery (id : ProposalId) (due : ProposalRow → Bool) (f : ProposalRow → ProposalRow)
    (records : Bool → Bool) (notice : Notice) : Tx Unit := do
  let changed ← Txn.read fun s =>
    (s.proposals.get? id).any fun row => row.status = .revising && due row
  updateReview id fun row => if row.status = .revising ∧ due row = true then f row else row
  Txn.when (records changed = true) do
    let anchor ← Txn.found (.refused s!"proposal {id} has no task") (← Txn.read fun s => s.anchor id)
    taskNotice anchor notice

def reviseSent (id : ProposalId) : Tx Unit :=
  reviseDelivery id (fun _ => true) (fun row => { row with unresponsiveAt := none }) (fun _ => true)
    (.planReviseSent id)

/-- The revise is taken back: the planner it went to is gone, or (`none`) the delivery failed. -/
def reviseLost (id : ProposalId) (planner : Option PlannerId) : Tx Unit :=
  reviseDelivery id (·.reviseSentAt.isSome)
    (fun row => { row with reviseSentAt := none, unresponsiveAt := none })
    (fun changed => changed && planner.isSome) (.planReviseLost id)

/-- No planner submitted the proposal again in time: recorded once per revise. -/
def plannerUnresponsive (id : ProposalId) (now : Seconds) : Tx Unit :=
  reviseDelivery id (·.unresponsiveAt.isNone) (fun row => { row with unresponsiveAt := some now })
    (fun changed => changed) (.plannerUnresponsive id)

/-! ## Settling -/

/-- A submitted proposal none of whose tasks waits for plan review any more, and no job reviews. -/
def Store.isEmptied (s : Store) (id : ProposalId) (row : ProposalRow) : Bool :=
  row.status = .submitted
    && !(s.tasks.any fun _ t => t.proposalId = some id && t.task.status = .submitted)
    && !(s.planReviews.any fun _ r => r.proposalId = id && r.finishedAt.isNone)

/-- The proposal ends: accepted while a task of it is not canceled, canceled otherwise. -/
def settleProposal (id : ProposalId) : Tx Unit := do
  let live ← Txn.read fun s =>
    s.tasks.any fun _ t => t.proposalId = some id && t.task.status != .canceled
  let current ← readProposal id
  let ended ← Tx.domain (if live then current.accept else current.cancel)
  saveProposal ended
  setHold id none
  let anchor ← Txn.read fun s => s.anchor id
  Txn.option anchor (pure ()) fun anchor => taskNotice anchor (.proposalSettled id ended.status)

/-- End every proposal whose tasks all left plan review by other ways.  The asks of its concern are not
looked at. -/
def settleProposals : Tx Unit := do
  let emptied ← Txn.read fun s => (s.proposals.select s.isEmptied).map Prod.fst
  emptied.forM settleProposal

/-! ## The answer to a concern -/

/-- The proposal the ask's task belongs to now. -/
def Store.askProposal (s : Store) (ask : Ask) : Option ProposalId := ask.taskId.bind s.proposalOf

/-- Whether the answer `text` of `ask` is one the supervisor applies: one of the plan options, while
the proposal of the ask's task is still submitted and held for a concern. -/
def Store.planAnswerApplies (s : Store) (ask : Ask) (text : String) : Bool :=
  ask.kind = .approvePlan && (PlanAnswer.parse text).isSome
    && (s.askProposal ask).any fun id => (s.proposals.get? id).any fun row =>
      row.status = .submitted && row.reviewHold = some .concern

/-- The reasons of the proposal's latest finished review with a verdict. -/
def Store.latestReasons (s : Store) (id : ProposalId) : List String :=
  ((s.planReviews.last? fun _ row => row.proposalId = id && row.reasons.isSome).bind
    fun r => r.2.reasons).getD []

/-- A person sent the proposal back. -/
def sendBackAnswered (id : ProposalId) (now : Seconds) : Tx Unit := do
  sendBack id
  let reasons ← Txn.read fun s => s.latestReasons id
  awaitDelivery id ("a person sent the proposal back" :: reasons) now

/-- A submitted task is canceled with its proposal. -/
def cancelMember (taskId : TaskId) : Tx Unit := do
  let row ← readTask taskId
  Txn.when (row.task.status = .submitted) do
    let _ ← transitionTask taskId .cancel

def cancelProposal (id : ProposalId) : Tx Unit := do
  let p ← readProposal id
  let canceled ← Tx.domain p.cancel
  saveProposal canceled
  canceled.taskIds.forM cancelMember

/-- What each answer does to the held proposal. -/
def applyAnswer (id : ProposalId) (now : Seconds) : PlanAnswer → Tx Unit
  | .ready => approve id
  | .sendBack _ => sendBackAnswered id now
  | .cancel => cancelProposal id

/-- The answer is applied to the proposal of the ask's task, and the ask closed. -/
def applyPlanAnswer (askId : AskId) (id : ProposalId) (answer : PlanAnswer) (now : Seconds) :
    Tx (Option ProposalId) := do
  setHold id none
  applyAnswer id now answer
  closeAskRow askId now
  let anchor ← Txn.found (.refused s!"proposal {id} has no task") (← Txn.read fun s => s.anchor id)
  let p ← readProposal id
  taskNotice anchor (.planDecided id askId p.status)
  return some id

/-- `decide_plan`: apply an answered `approve_plan` ask.  An answer nobody applies any more only closes
the ask. -/
def decidePlan (askId : AskId) (now : Seconds) : Tx (Option ProposalId) := do
  let ask ← readAsk askId
  Tx.ensure (ask.kind = .approvePlan) s!"ask {askId} is not an approve_plan ask"
  let answer ← Txn.found .notTaken (PlanAnswer.parse (ask.answer.getD ""))
  Tx.takenIf (ask.closedAt.isNone = true)
  let applies ← Txn.read fun s => s.planAnswerApplies ask (ask.answer.getD "")
  let proposalId ← Txn.read fun s => s.askProposal ask
  if applies = true then do
    let id ← Txn.found (.refused "the ask's task has no proposal") proposalId
    applyPlanAnswer askId id answer now
  else do
    closeAskRow askId now
    return none

/-! Instance search sees through these operations to the steps they are made of. -/

attribute [reducible] applyAction awaitDelivery reopenTask reopen finishRow startPlanReview
  beginPlanReview holdForConcern checkVerdict applyVerdict discardVerdict finishPlanReview
  failPlanReview claimRevise reviseDelivery reviseSent reviseLost plannerUnresponsive
  settleProposal settleProposals sendBackAnswered cancelMember cancelProposal applyAnswer
  applyPlanAnswer decidePlan

end Dagq
