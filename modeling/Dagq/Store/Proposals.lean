/-
# Dagq.Store.Proposals -- submitting, approving, sending back and withdrawing a proposal.

A task or goal names the proposal it joined last; a proposal holds its members while it is submitted
or revising.  Submitting moves member drafts to `submitted`; the plan-review path readies them; a send
back and a withdrawal return them to `draft`.
-/
import Dagq.Store.Asks
import Dagq.Store.Tasks

namespace Dagq

open Lib

/-! ## Reading and saving -/

namespace Store

/-- The tasks whose rows name the proposal, by id. -/
def members (s : Store) (id : ProposalId) : List TaskId :=
  sorted ((s.tasks.select fun _ row => row.proposalId = some id).map Prod.fst)

def memberGoals (s : Store) (id : ProposalId) : List GoalId :=
  sorted ((s.goals.select fun _ row => row.proposalId = some id).map Prod.fst)

def proposal? (s : Store) (id : ProposalId) : Option Proposal :=
  (s.proposals.get? id).map fun row => {
    id := id, status := row.status, owner := row.owner, submittedAt := row.submittedAt
    reviseCount := row.reviseCount, taskIds := s.members id, goalIds := s.memberGoals id }

/-- The proposal a row with `proposalId` belongs to now, with its status. -/
def membership (s : Store) (proposalId : Option ProposalId) :
    Option (ProposalId × ProposalStatus) := do
  let id ← proposalId
  let row ← s.proposals.get? id
  return (id, row.status)

def proposalOf (s : Store) (taskId : TaskId) : Option ProposalId :=
  (s.tasks.get? taskId).bind TaskRow.proposalId

/-- The member drafts and submitted tasks of a proposal that is submitted again. -/
def waitingMembers (s : Store) (id : ProposalId) : List TaskId :=
  (s.tasks.select fun _ row => row.proposalId = some id
    && (row.task.status = .draft || row.task.status = .submitted)).map Prod.fst

def draftsOfGoal (s : Store) (goalId : GoalId) : List TaskId :=
  ((s.tasksOfGoal goalId).filter fun r => r.2.task.status = .draft).map Prod.fst

/-- The task's goal and its verdict, when that goal is closed. -/
def closedGoal (s : Store) (taskId : TaskId) : Option GoalId := do
  let row ← s.tasks.get? taskId
  let goalId ← row.task.goalId
  let goal ← s.goals.get? goalId
  if goal.goal.isClosed then some goalId else none

end Store

def readProposal (id : ProposalId) : Tx Proposal := do
  Txn.found (.refused s!"proposal {id} does not exist") (← Txn.read fun s => s.proposal? id)

/-- Insert or update the row; members are written on the tasks and goals by the caller. -/
def saveProposal (p : Proposal) : Tx Unit :=
  Txn.write fun s => { s with
    proposals := (s.proposals.modify p.id fun row => { row with
        status := p.status, owner := p.owner, submittedAt := p.submittedAt
        reviseCount := p.reviseCount }).push p.id {
      status := p.status, owner := p.owner, submittedAt := p.submittedAt
      reviseCount := p.reviseCount } }

/-- Rewrite the plan-review columns of the row. -/
def updateReview (id : ProposalId) (f : ProposalRow → ProposalRow) : Tx Unit :=
  Txn.write fun s => { s with proposals := s.proposals.modify id f }

def setHold (id : ProposalId) (hold : Option ReviewHold) : Tx Unit :=
  updateReview id fun row => { row with reviewHold := hold }

/-- A submission starts plan review afresh, and a withdrawal drops it: no hold, no revise pending. -/
def dropReview (id : ProposalId) : Tx Unit :=
  updateReview id fun row => { row with
    reviewHold := none, reviseReasons := none, reviseSentAt := none, unresponsiveAt := none }

/-- The task joins the proposal. -/
def joinProposal (taskId : TaskId) (id : ProposalId) : Tx Unit :=
  Txn.write fun s =>
    { s with tasks := s.tasks.modify taskId fun row => { row with proposalId := some id } }

/-! ## Drafts of the runtime -/

/-- A follow-up this many steps from a person's judgement is not submitted by a planner of the
runtime's without one. -/
def followUpAskDepth : Nat := 2

/-- Whether a planner of the runtime's may not submit a follow-up draft without a person's `adopt`
answer. -/
def adoptNeedsPerson (goalOpen : Bool) (depth : Nat) : Bool := !goalOpen || followUpAskDepth ≤ depth

/-- A draft a submission takes. -/
structure Adoption where
  task : TaskId
  origin : Option DraftOrigin
  byPerson : Bool
  depth : Nat

def recordDraftOrigin (taskId : TaskId) (origin : DraftOrigin) : Tx Unit := do
  let row ← readTask taskId
  Tx.ensure (row.task.status = .draft) s!"task {taskId} is not a draft"
  let known ← Txn.read fun s => s.draftOrigins.get? taskId
  Tx.ensure (known.isNone = true) s!"task {taskId} already has an origin"
  Txn.write fun s => { s with draftOrigins := s.draftOrigins.push taskId origin }

def setFollowUpDepth (taskId : TaskId) (depth : Nat) : Tx Unit := do
  let _ ← readTask taskId
  Txn.write fun s =>
    { s with tasks := s.tasks.modify taskId fun row => { row with followUpDepth := depth } }

/-- What SQL's `trim(text)` leaves: it takes spaces away, and no other blanks. -/
def sqlTrim (text : String) : List Char :=
  ((text.toList.dropWhile (· = ' ')).reverse.dropWhile (· = ' ')).reverse

/-- Whether a person answered `adopt` to a question about the draft. -/
def Store.adoptAnswered (s : Store) (taskId : TaskId) : Bool :=
  s.asks.any fun _ a => a.taskId = some taskId && a.runId.isNone
    && (a.kind = .plannerQuestion || a.kind = .followUp)
    && a.answer.any fun text => sqlTrim text = "adopt".toList

/-- Whether a person adopted the draft before. -/
def Store.adoptedByPerson (s : Store) (taskId : TaskId) : Bool :=
  (s.taskEventsOf taskId).any fun | .notice (.draftAdopted _ true _) => true | _ => false

/-- What a submission does to one of its drafts, checked before any task moves. -/
def checkAdoption (origin : PlannerOrigin) (taskId : TaskId) : Tx (Option Adoption) := do
  let row ← readTask taskId
  let draftOrigin ← Txn.read fun s => s.draftOrigins.get? taskId
  let adopted ← Txn.read fun s => s.adoptAnswered taskId
  let before ← Txn.read fun s => s.adoptedByPerson taskId
  let goalOpen ← Txn.read fun s =>
    row.task.goalId.any fun g => (s.goals.get? g).any fun goal => !goal.goal.isClosed
  if row.task.status = .draft then do
    Tx.ensure (¬(draftOrigin = some .followUp ∧ origin = .runtime ∧ adopted = false ∧ before = false
        ∧ adoptNeedsPerson goalOpen row.followUpDepth = true))
      s!"task {taskId} is a follow_up draft a planner of the runtime's may not submit without a person"
    return some {
      task := taskId, origin := draftOrigin
      byPerson := origin = .person || (draftOrigin.isSome && adopted)
      depth := row.followUpDepth }
  else return none

/-- A task a person submitted counts its follow-ups from 0 again; a draft of the runtime's or a job's
records its adoption the first time. -/
def recordAdoption (adoption : Adoption) : Tx Unit := do
  Txn.when (adoption.byPerson = true) <| Txn.write fun s => { s with
    tasks := s.tasks.modify adoption.task fun row => { row with followUpDepth := 0 } }
  let recorded ← Txn.read fun s => (s.taskEventsOf adoption.task).any fun
    | .notice (.draftAdopted origin ..) => adoption.origin = some origin
    | _ => false
  Txn.option adoption.origin (pure ()) fun origin =>
    Txn.when (recorded = false) <| taskNotice adoption.task
      (.draftAdopted origin adoption.byPerson (if adoption.byPerson then 0 else adoption.depth))

/-! ## Submitting -/

/-- A proposal plan review holds for a person goes again as it is. -/
def retryHeld (submission : Submission) (existing : Proposal) (now : Seconds) : Tx ProposalId := do
  let row ← Txn.read fun s => s.proposals.get? existing.id
  Tx.domain (require (existing.status = .submitted && row.any fun r => r.reviewHold.isSome)
    (.proposalNotInStatus existing.id existing.status .revising))
  Tx.ensure (submission.tasks.isEmpty && submission.goals.isEmpty)
    s!"proposal {existing.id} waits for plan review as it is; it takes no new task or goal"
  let retried ← Tx.domain (existing.retry now)
  saveProposal retried
  setHold retried.id none
  (retried.taskIds.take 1).forM fun taskId => taskNotice taskId (.proposalResubmitted retried.id)
  return retried.id

/-- A goal that joins is open and in no other active proposal. -/
def checkGoalJoins (target : Option ProposalId) (goalId : GoalId) : Tx Unit := do
  let row ← readGoal goalId
  Tx.domain (Goal.checkAcceptsTasks goalId row.goal)
  let current ← Txn.read fun s => s.membership row.proposalId
  Tx.domain (Proposal.checkGoalJoins goalId current target)

/-- A task that joins is in no other active proposal. -/
def checkTaskJoins (target : Option ProposalId) (taskId : TaskId) : Tx Unit := do
  let current ← Txn.read fun s => s.membership (s.proposalOf taskId)
  Tx.domain (Proposal.checkTaskJoins taskId current target)

/-- A draft moves to `submitted` and joins; a task that waits in `submitted` already goes as it is. -/
def submitTask (id : ProposalId) (taskId : TaskId) : Tx Unit := do
  let row ← readTask taskId
  Txn.when (row.task.status ≠ .submitted) do
    let _ ← transitionTask taskId .submit
    joinProposal taskId id
    taskNotice taskId (.taskSubmitted id)

/-- A goal joins with its row; its event is recorded only when it was not in already. -/
def submitGoal (id : ProposalId) (goalId : GoalId) : Tx Unit := do
  let row ← readGoal goalId
  Txn.when (row.proposalId ≠ some id) do
    Txn.write fun s =>
      { s with goals := s.goals.modify goalId fun row => { row with proposalId := some id } }
    goalNotice goalId (.goalSubmitted id)

/-- A new proposal, or one plan review sent back, with its members. -/
def submitMembers (submission : Submission) (existing : Option Proposal) (now : Seconds) :
    Tx ProposalId := do
  let goals := sorted (submission.goals ++ existing.elim [] Proposal.goalIds)
  let waiting ← Txn.read fun s => existing.elim [] fun p => s.waitingMembers p.id
  goals.forM (checkGoalJoins submission.proposal)
  let drafts ← Txn.read fun s => goals.flatMap s.draftsOfGoal
  let tasks := sorted (submission.tasks ++ waiting ++ drafts)
  Tx.domain (require (!tasks.isEmpty) .emptyProposal)
  tasks.forM (checkTaskJoins submission.proposal)
  let adoptions ← Txn.collect (checkAdoption submission.owner.origin) tasks
  let id ← Txn.read fun s => s.proposals.nextId
  let submitted ← Tx.domain (match existing with
    | some p => p.resubmit submission.owner (p.taskIds ++ tasks) goals now
    | none => Proposal.submit id submission.owner tasks goals now)
  saveProposal submitted
  dropReview submitted.id
  tasks.forM (submitTask submitted.id)
  (adoptions.filterMap fun a => a).forM recordAdoption
  submitted.goalIds.forM (submitGoal submitted.id)
  return submitted.id

/-- `submit`: a new proposal, a proposal sent back, or one held for a person. -/
def submit (submission : Submission) (now : Seconds) : Tx ProposalId := do
  Tx.domain submission.validate
  Txn.option submission.proposal (submitMembers submission none now) fun id => do
    let existing ← readProposal id
    if existing.status = .revising then submitMembers submission (some existing) now
    else retryHeld submission existing now

/-! ## The plan-review path -/

/-- A submitted member becomes ready, or a draft when its goal was closed meanwhile. -/
def approveTask (id : ProposalId) (taskId : TaskId) : Tx Unit := do
  let row ← readTask taskId
  Txn.when (row.task.status = .submitted) do
    let closed ← Txn.read fun s => s.closedGoal taskId
    Txn.option closed
      (do
        let _ ← transitionTask taskId .approve)
      fun goalId => do
        let _ ← transitionTask taskId .draft
        taskNotice taskId (.approveWithheld id goalId)

/-- A draft goal of an accepted proposal opens. -/
def openGoal (goalId : GoalId) : Tx Unit := do
  let row ← readGoal goalId
  Txn.when (row.goal.isDraft = true) (readyGoal goalId)

/-- The proposal is accepted: its submitted tasks become ready and its draft goals open. -/
def approve (id : ProposalId) : Tx Unit := do
  let p ← readProposal id
  let accepted ← Tx.domain p.accept
  saveProposal accepted
  accepted.taskIds.forM (approveTask id)
  accepted.goalIds.forM openGoal

/-- A submitted task returns to `draft`; a task in another status stays. -/
def returnToDraft (taskId : TaskId) : Tx Unit := do
  let row ← readTask taskId
  Txn.when (row.task.status = .submitted) do
    let _ ← transitionTask taskId .draft

/-- Plan review sent the proposal back to its planner. -/
def sendBack (id : ProposalId) : Tx Unit := do
  let p ← readProposal id
  let revising ← Tx.domain p.sendBack
  saveProposal revising
  revising.taskIds.forM returnToDraft

/-- Close the task's `approve_plan` asks nobody closed, answering an open one `withdrawn` first. -/
def closePlanAsks (taskId : TaskId) (now : Seconds) : Tx Unit := do
  let unclosed ← Txn.read fun s =>
    s.asks.select fun _ a => a.taskId = some taskId && a.kind = .approvePlan && a.closedAt.isNone
  unclosed.forM fun r => do
    Txn.when (r.2.isOpen = true) do
      writeAnswer r.1 r.2 "withdrawn" answeredByRuntime now
      taskNotice taskId (.askAnswered r.1 .approvePlan true)
    closeAskRow r.1 now

/-- Its planner withdraws the proposal: members return to `draft`, and a concern's ask is closed, for
its answer would reach the proposal its task joins next. -/
def withdraw (id : ProposalId) (now : Seconds) : Tx Unit := do
  let p ← readProposal id
  let withdrawn ← Tx.domain p.withdraw
  saveProposal withdrawn
  dropReview id
  withdrawn.taskIds.forM fun taskId => do
    returnToDraft taskId
    taskNotice taskId (.proposalWithdrawn id p.status)
    closePlanAsks taskId now
  withdrawn.goalIds.forM fun goalId => goalNotice goalId (.proposalWithdrawn id p.status)

/-! Instance search sees through these operations to the steps they are made of. -/

attribute [reducible] readProposal saveProposal updateReview setHold dropReview joinProposal
  recordDraftOrigin setFollowUpDepth checkAdoption recordAdoption retryHeld checkGoalJoins
  checkTaskJoins submitTask submitGoal submit approveTask openGoal approve
  returnToDraft sendBack closePlanAsks withdraw

end Dagq
