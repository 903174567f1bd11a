/-
# Dagq.Domain.Proposal -- what a planner submits for plan review, and the review's verdict.

A proposal's members are the tasks and goals whose rows name it, so the aggregate is read from three
tables; the value here is the row together with the members it was read with.
-/
import Dagq.Domain.Ask
import Dagq.Domain.Event
import Mathlib.Data.List.Sort

namespace Dagq

/-- The planner that owns a proposal. -/
structure PlannerOwner where
  origin : PlannerOrigin
  workspaceId : Option String := none

/-- The tasks to bundle, the goals whose draft tasks join them, and the proposal to submit again
(`none`: a new one). -/
structure Submission where
  tasks : List TaskId := []
  goals : List GoalId := []
  proposal : Option ProposalId := none
  owner : PlannerOwner

def Submission.validate (submission : Submission) : Except DomainError Unit := do
  require (submission.tasks.all (0 < ·)) (.nonPositiveId "task ID")
  require (submission.goals.all (0 < ·)) (.nonPositiveId "goal ID")
  require (submission.proposal.all (0 < ·)) (.nonPositiveId "proposal ID")
  require (submission.owner.workspaceId.all fun id => !isBlank id) (.blank "planner workspace ID")

/-- Whether it still holds its members: waiting for plan review or being revised by its planner. -/
def ProposalStatus.isActive : ProposalStatus → Bool
  | .submitted | .revising => true
  | _ => false

/-- Ascending, each once. -/
def sorted (ids : List Nat) : List Nat := dedup (ids.insertionSort (· ≤ ·))

theorem mem_sorted {ids : List Nat} {id : Nat} : id ∈ sorted ids ↔ id ∈ ids := by
  unfold sorted
  rw [mem_dedup, List.mem_insertionSort]

theorem sorted_nodup {ids : List Nat} : (sorted ids).Nodup := dedup_nodup _

/-- Goals and tasks under plan review together.  `submittedAt` is when it was last submitted. -/
structure Proposal where
  id : ProposalId
  status : ProposalStatus
  owner : PlannerOwner
  submittedAt : Seconds
  reviseCount : Nat
  taskIds : List TaskId
  goalIds : List GoalId

namespace Proposal

def requireTasks (taskIds : List TaskId) : Except DomainError Unit :=
  require (!taskIds.isEmpty) .emptyProposal

def requireStatus (proposal : Proposal) (expected : ProposalStatus) : Except DomainError Unit :=
  require (proposal.status = expected) (.proposalNotInStatus proposal.id proposal.status expected)

/-- A proposal submitted now as `id` by `owner` with its members; it holds at least one task. -/
def submit (id : ProposalId) (owner : PlannerOwner) (taskIds : List TaskId) (goalIds : List GoalId)
    (now : Seconds) : Except DomainError Proposal := do
  require (0 < id) (.nonPositiveId "proposal ID")
  requireTasks taskIds
  return {
    id := id, status := .submitted, owner := owner, submittedAt := now, reviseCount := 0
    taskIds := sorted taskIds, goalIds := sorted goalIds }

/-- Submit a proposal plan review sent back again, now holding what it held plus what joined. -/
def resubmit (proposal : Proposal) (owner : PlannerOwner) (taskIds : List TaskId)
    (goalIds : List GoalId) (now : Seconds) : Except DomainError Proposal := do
  proposal.requireStatus .revising
  requireTasks taskIds
  return { proposal with
    status := .submitted, owner := owner, taskIds := sorted taskIds, goalIds := sorted goalIds
    submittedAt := now }

/-- Plan review passed the proposal. -/
def accept (proposal : Proposal) : Except DomainError Proposal := do
  proposal.requireStatus .submitted
  return { proposal with status := .accepted }

/-- Plan review takes a submitted proposal it held again, as it is, in the order of this new
submission. -/
def retry (proposal : Proposal) (now : Seconds) : Except DomainError Proposal := do
  proposal.requireStatus .submitted
  return { proposal with submittedAt := now }

/-- A person answered the `approve_plan` ask with `cancel`. -/
def cancel (proposal : Proposal) : Except DomainError Proposal := do
  proposal.requireStatus .submitted
  return { proposal with status := .canceled }

/-- Its planner withdraws a submitted or revising proposal. -/
def withdraw (proposal : Proposal) : Except DomainError Proposal := do
  require proposal.status.isActive (.proposalNotActive proposal.id proposal.status)
  return { proposal with status := .canceled }

/-- A proposal of its own for ready tasks plan review found have to change: it starts out sent back,
owned by the runtime's planner. -/
def reopen (id : ProposalId) (taskIds : List TaskId) (now : Seconds) :
    Except DomainError Proposal := do
  let proposal ← submit id { origin := .runtime } taskIds [] now
  return { proposal with status := .revising }

/-- Plan review sent the proposal back to its planner. -/
def sendBack (proposal : Proposal) : Except DomainError Proposal := do
  proposal.requireStatus .submitted
  return { proposal with status := .revising, reviseCount := proposal.reviseCount + 1 }

/-- Whether a task, now in `current` (its proposal and that proposal's status), may join `target`
(`none`: a new one): only when it is in no active proposal or already in `target`. -/
def checkTaskJoins (taskId : TaskId) (current : Option (ProposalId × ProposalStatus))
    (target : Option ProposalId) : Except DomainError Unit :=
  match current with
  | some (proposalId, status) =>
      require (!status.isActive || target = some proposalId) (.taskInOtherProposal taskId proposalId)
  | none => .ok ()

/-- `checkTaskJoins` for a goal. -/
def checkGoalJoins (goalId : GoalId) (current : Option (ProposalId × ProposalStatus))
    (target : Option ProposalId) : Except DomainError Unit :=
  match current with
  | some (proposalId, status) =>
      require (!status.isActive || target = some proposalId) (.goalInOtherProposal goalId proposalId)
  | none => .ok ()

/-! ### What the commands do -/

/-- How a command moves an active proposal on. -/
structure MovesTo (p p' : Proposal) (status : ProposalStatus) : Prop where
  active : p.status.isActive = true
  id_eq : p'.id = p.id
  status_eq : p'.status = status

section Commands

variable {p p' : Proposal}

theorem requireStatus_ok {expected : ProposalStatus} {u : Unit} :
    p.requireStatus expected = .ok u ↔ p.status = expected := by
  simp [requireStatus]

theorem accept_ok (h : p.accept = .ok p') : MovesTo p p' .accepted := by
  simp only [accept, except_bind_ok, except_pure_ok, requireStatus_ok] at h
  obtain ⟨_, hs, rfl⟩ := h
  exact ⟨by rw [hs]; rfl, rfl, rfl⟩

theorem cancel_ok (h : p.cancel = .ok p') : MovesTo p p' .canceled := by
  simp only [cancel, except_bind_ok, except_pure_ok, requireStatus_ok] at h
  obtain ⟨_, hs, rfl⟩ := h
  exact ⟨by rw [hs]; rfl, rfl, rfl⟩

theorem withdraw_ok (h : p.withdraw = .ok p') : MovesTo p p' .canceled := by
  simp only [withdraw, except_bind_ok, except_pure_ok, require_ok] at h
  obtain ⟨_, hs, rfl⟩ := h
  exact ⟨hs, rfl, rfl⟩

theorem sendBack_ok (h : p.sendBack = .ok p') : MovesTo p p' .revising := by
  simp only [sendBack, except_bind_ok, except_pure_ok, requireStatus_ok] at h
  obtain ⟨_, hs, rfl⟩ := h
  exact ⟨by rw [hs]; rfl, rfl, rfl⟩

theorem retry_ok {now : Seconds} (h : p.retry now = .ok p') :
    MovesTo p p' .submitted ∧ p.status = .submitted := by
  simp only [retry, except_bind_ok, except_pure_ok, requireStatus_ok] at h
  obtain ⟨_, hs, rfl⟩ := h
  exact ⟨⟨by rw [hs]; rfl, rfl, hs⟩, hs⟩

theorem resubmit_ok {owner : PlannerOwner} {taskIds : List TaskId} {goalIds : List GoalId}
    {now : Seconds} (h : p.resubmit owner taskIds goalIds now = .ok p') :
    MovesTo p p' .submitted := by
  simp only [resubmit, except_bind_ok, except_pure_ok, requireStatus_ok] at h
  obtain ⟨_, hs, _, _, rfl⟩ := h
  exact ⟨by rw [hs]; rfl, rfl, rfl⟩

theorem submit_ok {id : ProposalId} {owner : PlannerOwner} {taskIds : List TaskId}
    {goalIds : List GoalId} {now : Seconds} (h : submit id owner taskIds goalIds now = .ok p') :
    p'.id = id ∧ p'.status = .submitted := by
  simp only [submit, except_bind_ok, except_pure_ok] at h
  obtain ⟨_, _, _, _, rfl⟩ := h
  exact ⟨rfl, rfl⟩

theorem reopen_ok {id : ProposalId} {taskIds : List TaskId} {now : Seconds}
    (h : reopen id taskIds now = .ok p') : p'.id = id ∧ p'.status = .revising := by
  simp only [reopen, except_bind_ok, except_pure_ok] at h
  obtain ⟨_, hsubmit, rfl⟩ := h
  exact ⟨(submit_ok hsubmit).1, rfl⟩

end Commands

end Proposal

/-! ## The plan review -/

/-- A fix plan review makes itself. -/
inductive PlanReviewAction
  | addDependency (taskId dependsOn : TaskId)
  | lowerPriority (taskId : TaskId) (priority : Priority)
  | cancelDuplicate (taskId duplicateOf : TaskId)

/-- The task of the proposal the action changes. -/
def PlanReviewAction.taskId : PlanReviewAction → TaskId
  | .addDependency taskId _ | .lowerPriority taskId _ | .cancelDuplicate taskId _ => taskId

/-- A task already `ready`, outside the proposal, that has to change for the proposal to hold. -/
structure Reopen where
  taskId : TaskId
  reason : String

/-- What the headless plan review prints: `actions` are applied on `pass` only, `reopen` whatever the
verdict.  Its predictions and precedents only add events and texts, so they are left out. -/
structure PlanReviewVerdict where
  verdict : PlanReviewDecision
  reasons : List String := []
  actions : List PlanReviewAction := []
  reopen : List Reopen := []

/-- How many times plan review sends one proposal back to its planner; a later review that does not
pass is a `concern`. -/
def maxPlanRevises : Nat := 2

def planOptions : List String := ["ready", "send_back", "cancel"]

/-- Who opens the `approve_plan` asks. -/
def planReviewAsker : String := "plan_review"

/-- A person's answer to an `approve_plan` ask the supervisor applies. -/
inductive PlanAnswer
  | ready
  | sendBack (reason : Option (List Char))
  | cancel
  deriving DecidableEq

/-- One of `planOptions`, `send_back` optionally followed by `:` and a reason; anything else is a
person's to read. -/
def PlanAnswer.parse (answer : String) : Option PlanAnswer :=
  let answer := trimChars answer
  if answer = "ready".toList then some .ready
  else if answer = "cancel".toList then some .cancel
  else if answer = "send_back".toList then some (.sendBack none)
  else do
    let rest ← "send_back".toList.isPrefixOf? answer
    let reason ← [':'].isPrefixOf? (rest.dropWhile isWhitespace)
    let reason := ((reason.dropWhile isWhitespace).reverse.dropWhile isWhitespace).reverse
    return .sendBack (if reason.isEmpty then none else some reason)

example : PlanAnswer.parse " send_back : too big " = some (.sendBack (some "too big".toList)) ∧
    PlanAnswer.parse "send_back" = some (.sendBack none) ∧ PlanAnswer.parse "later" = none := by
  decide

end Dagq
