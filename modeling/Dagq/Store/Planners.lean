/-
# Dagq.Store.Planners -- the planners the runtime opens for drafts.

A draft the runtime or a job registered gets a planner of the runtime's, and another one when that ends
with the draft undecided, at most `maxDraftPlanners` in all; an answer to a planner's question whose
planner is gone is handed to a new one past that limit.  Opening a planner is one transaction that
looks at the draft again, so two supervisors never open one for the same draft.

The log's events about these planners are kept in lists of their own.  The material of an origin and
the prompt made of it are left out, and so are the processes of a planner's session.
-/
import Dagq.Store.Proposals

namespace Dagq

open Lib

/-- How many planners of the runtime's a draft has before it is a person's. -/
def maxDraftPlanners : Nat := 3

/-! ## Rows and events -/

/-- A planner, of a person or of the runtime, for a proposal, a draft or neither. -/
structure PlannerSession where
  origin : PlannerOrigin
  proposalId : Option ProposalId := none
  draftTaskId : Option TaskId := none
  workspaceId : Option String := none
  closedAt : Option Seconds := none
  error : Option String := none

/-- `draft_planner_opened`: the planner, the answer it carries, and the goal of the draft then. -/
structure DraftPlannerOpened where
  draft : TaskId
  plannerId : PlannerId
  attempt : Nat
  origin : DraftOrigin
  askId : Option AskId
  goalId : Option GoalId

/-- `draft_planner_exhausted`: so many planners ended without deciding the draft. -/
structure DraftPlannerExhausted where
  draft : TaskId
  planners : Nat
  askId : Option AskId
  reason : String

/-- The queue with its planners. -/
structure PlannerQueue where
  store : Store
  planners : Table PlannerId PlannerSession
  opened : List DraftPlannerOpened
  exhausted : List DraftPlannerExhausted

/-- Where the answer of a planner's question goes. -/
inductive PlannerAnswerRoute
  | planner (id : PlannerId) (session : PlannerSession)
  | newPlanner
  | close
  | person

/-- A draft, where it came from, and how many planners it had. -/
structure DraftTarget where
  task : Task
  origin : DraftOrigin
  planners : Nat

/-- What became of opening a planner. -/
inductive DraftPlannerStart
  | skipped
  | exhausted (attempts : Nat)
  | opened (planner : PlannerId) (target : DraftTarget) (attempt : Nat)

/-- A transaction of the queue and its planners. -/
abbrev PlannerTx (α : Type) : Type := Txn PlannerQueue StoreError α

/-- The runtime's planner is open for the draft. -/
def PlannerSession.worksOn (p : PlannerSession) (draft : TaskId) : Bool :=
  p.origin = .runtime && p.closedAt.isNone && p.draftTaskId = some draft

namespace PlannerQueue

variable (q : PlannerQueue)

/-! ## Reads -/

/-- Whether the task is in a proposal that was not withdrawn. -/
def inProposal (row : TaskRow) : Bool :=
  row.proposalId.any fun p => (q.store.proposals.get? p).any fun x => x.status != .canceled

def isExhausted (draft : TaskId) : Bool := q.exhausted.any fun e => e.draft = draft

/-- Whether a question about the draft holds it back: one nobody closed, or one answered to keep it as
a draft. -/
def heldByAsk (draft : TaskId) : Bool :=
  q.store.asks.any fun _ a => a.taskId = some draft && a.runId.isNone
    && ((a.kind = .plannerQuestion && a.closedAt.isNone)
      || ((a.kind = .plannerQuestion || a.kind = .followUp)
        && a.answer.any fun text => sqlTrim text = "keep_draft".toList))

/-- Whether the draft waits for a planner of the runtime's. -/
def isTarget (draft : TaskId) : Bool :=
  (q.store.tasks.get? draft).any fun row =>
    (q.store.draftOrigins.get? draft).isSome && row.task.status = .draft && !q.inProposal row
    && !(q.planners.any fun _ p => p.draftTaskId = some draft && p.closedAt.isNone)
    && !q.heldByAsk draft && !q.isExhausted draft

def plannersOpened (draft : TaskId) : Nat := q.opened.countP fun e => e.draft = draft

/-- The runtime's newest planner not closed that works on the task, as a draft or for its proposal. -/
def workingOn (taskId : TaskId) : Option (PlannerId × PlannerSession) :=
  (q.store.tasks.get? taskId).bind fun row =>
    q.planners.last? fun _ p => p.origin = .runtime && p.closedAt.isNone
      && (p.draftTaskId = some taskId || (row.proposalId.isSome && p.proposalId = row.proposalId))

/-- Where the answer of `ask` goes: to the planner that works on its task, else to nobody for
`keep_draft` or a draft that moved on, else to a new planner while the draft waits, else to a person. -/
def routeOf (ask : Ask) : Except StoreError PlannerAnswerRoute :=
  match ask.taskId with
  | none => .ok .person
  | some taskId =>
      if ask.kind ≠ .plannerQuestion ∨ ask.answer = none ∨ ask.closedAt.isSome = true then
        .ok .person
      else match q.workingOn taskId with
        | some (id, session) => .ok (.planner id session)
        | none =>
            if ask.answer.map trimChars = some "keep_draft".toList then .ok .close
            else match q.store.tasks.get? taskId with
              | none => .error (.refused s!"task {taskId} does not exist")
              | some row =>
                  if q.store.draftOrigins.get? taskId = none then .ok .person
                  else if row.task.status = .draft then
                    if q.inProposal row = false ∧ q.isExhausted taskId = false then .ok .newPlanner
                    else .ok .person
                  else .ok .close

end PlannerQueue

/-! ## Writes -/

/-- Whether a planner may be opened for the draft, on its own or to carry the answer of an ask. -/
def eligibleDraft (draft : TaskId) (answer : Option AskId) : PlannerTx Bool :=
  Txn.option answer (Txn.read fun q => q.isTarget draft) fun id => do
    let ask ← Txn.found (.refused s!"ask {id} does not exist")
      (← Txn.read fun q => q.store.asks.get? id)
    if ask.taskId = some draft then do
      let route ← Txn.lift (← Txn.read fun q => q.routeOf ask)
      return match route with | .newPlanner => true | _ => false
    else return false

/-- The draft had its planners: recorded, for the inbox. -/
def recordExhausted (draft : TaskId) (opened : Nat) (answer : Option AskId) : PlannerTx Unit :=
  Txn.write fun q => { q with exhausted := q.exhausted ++ [{
    draft := draft, planners := opened, askId := answer
    reason := s!"{opened} planners of the runtime's ended without deciding the draft "
      ++ s!"(at most {maxDraftPlanners})" }] }

/-- The row of a planner for the draft, and the event that it was opened. -/
def insertDraftPlanner (draft : TaskId) (row : TaskRow) (opened : Nat) (answer : Option AskId) :
    PlannerTx DraftPlannerStart := do
  let planner ← Txn.read fun q => q.planners.nextId
  Txn.write fun q => { q with
    planners := q.planners.push planner { origin := .runtime, draftTaskId := some draft } }
  let origin ← Txn.found (.refused "the draft has no origin")
    (← Txn.read fun q => q.store.draftOrigins.get? draft)
  Txn.write fun q => { q with opened := q.opened ++ [{
    draft := draft, plannerId := planner, attempt := opened + 1, origin := origin, askId := answer
    goalId := row.task.goalId }] }
  let planners ← Txn.read fun q => q.plannersOpened draft
  return .opened planner { task := row.task, origin := origin, planners := planners } (opened + 1)

/-- `open_draft_planner`.  An answer is carried past the limit. -/
def openDraftPlanner (draft : TaskId) (answer : Option AskId) : PlannerTx DraftPlannerStart := do
  let eligible ← eligibleDraft draft answer
  if eligible = false then return .skipped
  else do
    let row ← Txn.found (.refused s!"task {draft} does not exist")
      (← Txn.read fun q => q.store.tasks.get? draft)
    let opened ← Txn.read fun q => q.plannersOpened draft
    if maxDraftPlanners ≤ opened ∧ answer = none then do
      recordExhausted draft opened answer
      return .exhausted opened
    else insertDraftPlanner draft row opened answer

/-- `open_planner`: a planner for a proposal, or a person's. -/
def openPlanner (origin : PlannerOrigin) (proposal : Option ProposalId) : PlannerTx PlannerId := do
  let planner ← Txn.read fun q => q.planners.nextId
  Txn.write fun q =>
    { q with planners := q.planners.push planner { origin := origin, proposalId := proposal } }
  return planner

def plannerWorkspaceCreated (id : PlannerId) (workspaceId : String) : PlannerTx Unit := do
  let planner ← Txn.read fun q => q.planners.get? id
  Txn.ensure (planner.any (fun p => p.workspaceId.isNone) = true)
    (.refused s!"planner {id} already has a workspace or does not exist")
  Txn.write fun q => { q with
    planners := q.planners.modify id fun p => { p with workspaceId := some workspaceId } }

/-- Give the planner up.  Closing a closed planner keeps the first close. -/
def closePlanner (id : PlannerId) (error : Option String) (now : Seconds) : PlannerTx Unit := do
  Txn.write fun q => { q with planners := q.planners.modify id fun p =>
    if p.closedAt = none then
      { p with closedAt := some now, error := p.error <|> error }
    else p }
  let _ ← Txn.found (.refused s!"planner {id} does not exist")
    (← Txn.read fun q => q.planners.get? id)

end Dagq
