/-
# Dagq.Store.Asks -- registering, answering and closing the questions for a person.

At most one ask of the same task, run, kind and finding is open; registering it again returns the open
one unchanged.  An ask ends by its answer and waits for its close, by the person or by the runtime
that applied it.
-/
import Dagq.Store.State

namespace Dagq

open Lib

/-- `answered_by` of an answer the runtime wrote itself. -/
def answeredByRuntime : String := "runtime"

def readAsk (id : AskId) : Tx Ask := do
  Txn.found (.refused s!"ask {id} does not exist") (← Txn.read fun s => s.asks.get? id)

def updateAsk (id : AskId) (f : Ask → Ask) : Tx Unit :=
  Txn.write fun s => { s with asks := s.asks.modify id f }

def closeAskRow (id : AskId) (now : Seconds) : Tx Unit :=
  updateAsk id fun ask => { ask with closedAt := some now }

/-- An ask's event: on its task and run. -/
def askNotice (ask : Ask) (notice : Notice) : Tx Unit :=
  noticeOn ask.taskId ask.runId notice

/-- The open ask of the same task, run, kind and finding. -/
def Store.openAsk? (s : Store) (taskId : Option TaskId) (ask : NewAsk) : Option AskId :=
  (s.asks.select fun _ a => a.taskId = taskId && a.runId = ask.runId && a.kind = ask.kind
    && a.findingId = ask.findingId && a.isOpen).head?.map Prod.fst

/-- What the ask is about: the task of its run, or the task it names. -/
def askTarget (ask : NewAsk) : Tx (Option TaskId) :=
  Txn.option ask.runId
    (Txn.option ask.taskId (pure none) fun taskId => do
      let _ ← readTask taskId
      return some taskId)
    fun runId => do
      let row ← readRun runId s!"run {runId} does not exist"
      return some row.run.taskId

/-- A new ask, open, and the event that it is. -/
def openAskRow (row : Ask) : Tx AskId := do
  let id ← Txn.read fun s => s.asks.nextId
  Txn.write fun s => { s with asks := s.asks.push id row }
  askNotice row (.askOpened id row.kind)
  return id

/-- The row of a new ask about `taskId`. -/
def insertAskRow (taskId : Option TaskId) (ask : NewAsk) : Tx AskId :=
  openAskRow {
    kind := ask.kind, taskId := taskId, runId := ask.runId, question := ask.question
    options := ask.options, askedBy := ask.askedBy, reasonCategory := ask.reasonCategory
    findingId := ask.findingId }

/-- Register `ask`, or return the open one of the same task, run, kind and finding; whether it was
created.  `findings` says which findings exist: their table is no part of this model. -/
def insertAsk (findings : FindingId → Bool) (ask : NewAsk) : Tx (AskId × Bool) := do
  let taskId ← askTarget ask
  Tx.domain (checkAskKind ask.kind taskId ask.runId ask.reasonCategory)
  Tx.ensure (ask.findingId.all findings = true) "finding does not exist"
  let existing ← Txn.read fun s => s.openAsk? taskId ask
  Txn.option existing
    (do
      let id ← insertAskRow taskId ask
      return (id, true))
    fun id => pure (id, false)

/-- `ask`: register a question for a person. -/
def ask (findings : FindingId → Bool) (new : NewAsk) : Tx (AskId × Bool) := do
  Tx.domain new.validate
  insertAsk findings new

/-- Write `text` as the answer of the open ask. -/
def writeAnswer (id : AskId) (row : Ask) (text answeredBy : String) (now : Seconds) :
    Tx Unit :=
  updateAsk id fun ask => { ask with
    answer := some text, answeredAt := some now, answeredBy := some answeredBy
    optionIndex := optionIndex row.options text }

/-- `answer`: the answer of an open ask, and who gave it. -/
def answerAs (id : AskId) (text answeredBy : String) (now : Seconds) : Tx Unit := do
  Tx.ensure (isBlank text = false) "answer must not be blank"
  let row ← readAsk id
  Tx.ensure (row.isOpen = true) s!"ask {id} is not open"
  writeAnswer id row text answeredBy now
  askNotice row (.askAnswered id row.kind false)

/-- Mark an answered ask read.  An open ask cannot be closed: it is withdrawn by answering it. -/
def closeAsk (id : AskId) (now : Seconds) : Tx Unit := do
  let row ← readAsk id
  Tx.ensure (row.closedAt.isNone = true) s!"ask {id} is already closed"
  Tx.ensure (row.answeredAt.isSome = true) s!"ask {id} is not answered yet"
  closeAskRow id now
  askNotice row (.askClosed id row.kind)

/-- Close an answered ask that was delivered, and record it; one closed meanwhile is left as it is. -/
def closeDelivered (id : AskId) (now : Seconds) (recorded : Ask → Tx Unit) : Tx Unit := do
  let row ← readAsk id
  Txn.when (row.closedAt.isNone = true) do
    Tx.ensure (row.answeredAt.isSome = true) s!"ask {id} is not answered"
    closeAskRow id now
    recorded row

def askDelivered (id : AskId) (now : Seconds) : Tx Unit :=
  closeDelivered id now fun row => askNotice row (.askDelivered id)

/-- Nobody waits for the answer of the planner's question any more; recorded on its task, if any. -/
def closePlannerAnswer (id : AskId) (now : Seconds) : Tx Unit :=
  closeDelivered id now fun row =>
    Txn.option row.taskId (pure ()) fun taskId => taskNotice taskId (.plannerAnswerClosed id)

/-- An open ask is answered `answer` by the runtime; an answer given before is applied by the close
that follows. -/
def endForRuntime (id : AskId) (row : Ask) (answer : String) (now : Seconds) : Tx Unit :=
  if row.isOpen = true then do
    writeAnswer id row answer answeredByRuntime now
    askNotice row (.askAnswered id row.kind true)
  else askNotice row (.askClosed id row.kind)

/-- Close every ask `which` holds of and nobody closed: nobody needs to answer it any more. -/
def closeUnclosed (which : Ask → Bool) (answer : String) (now : Seconds) : Tx Unit := do
  let unclosed ← Txn.read fun s => s.asks.select fun _ a => which a && a.closedAt.isNone
  unclosed.forM fun r => do
    endForRuntime r.1 r.2 answer now
    closeAskRow r.1 now

/-- Close the asks of the run of `kind`. -/
def closeRuntimeAsks (runId : RunId) (kind : AskKind) (answer : String) (now : Seconds) : Tx Unit :=
  closeUnclosed (fun a => a.runId = some runId && a.kind = kind) answer now

/-- Close the `queue_hold` asks of `reason` and `subject`. -/
def closeHoldAsks (reason : AskReason) (subject : Option String) (answer : String) (now : Seconds) :
    Tx Unit :=
  closeUnclosed
    (fun a => a.kind = .queueHold && a.reasonCategory = reason && a.subject = subject) answer now

/-- Add `note` to the question of every ask of the run nobody closed. -/
def noteOnAsks (runId : RunId) (note : String) : Tx Unit := do
  let unclosed ← Txn.read fun s =>
    s.asks.select fun _ a => a.runId = some runId && a.closedAt.isNone
  unclosed.forM fun r => do
    updateAsk r.1 fun a => { a with question := r.2.question ++ "\n\n" ++ note }
    askNotice r.2 (.askUpdated r.1 r.2.kind)

/-! ## Asks about the queue -/

/-- The open `queue_hold` ask of the same reason and subject. -/
def Store.openHold? (s : Store) (hold : NewHold) : Option (AskId × Ask) :=
  (s.asks.select fun _ a => a.kind = .queueHold && a.reasonCategory = hold.reasonCategory
    && a.subject = hold.subject && a.isOpen).head?

/-- A run joins the open ask `row` of a hold; a run in it already changes nothing. -/
def joinHold (id : AskId) (row : Ask) (taskId : TaskId) (runId : RunId) : Tx Unit :=
  Txn.when (runId ∉ row.affected) do
    let affected := row.affected ++ [runId]
    updateAsk id fun a => { a with
      affected := affected, question := NewHold.questionFor row.holdQuestion affected }
    noticeOn (some taskId) (some runId) (.askUpdated id row.kind)

/-- The ask of a hold, with the run that hit it. -/
def openHold (hold : NewHold) : Tx Unit := do
  Tx.domain (checkAskKind .queueHold none none hold.reasonCategory)
  let affected := hold.runId.toList
  let _ ← openAskRow {
    kind := .queueHold, question := NewHold.questionFor hold.question affected
    options := hold.options, askedBy := hold.askedBy, reasonCategory := hold.reasonCategory
    subject := hold.subject, affected := affected }

/-- `hold`: open the ask of the hold's reason and subject, or add the run to the open one. -/
def hold (new : NewHold) : Tx Unit := do
  Tx.domain new.validate
  let taskId ← Txn.option new.runId (pure none) fun runId => do
    let row ← readRun runId s!"run {runId} does not exist"
    return some (row.run.taskId, runId)
  let existing ← Txn.read fun s => s.openHold? new
  Txn.option existing (openHold new) fun r =>
    Txn.option taskId (pure ()) fun run => joinHold r.1 r.2 run.1 run.2

/-- Open the ask of the automatic update of `kind`.  An open one of the same kind is about an older
build: it is answered `superseded` and closed first. -/
def openUpdateAsk (kind : AskKind) (question : String) (options : List String) (askedBy : String)
    (now : Seconds) : Tx Unit := do
  Tx.ensure (isBlank question = false) "question must not be blank"
  Tx.ensure (kind.isUpdate = true) "not an ask of the automatic update"
  Tx.domain (checkAskKind kind none none .scope)
  let unanswered ← Txn.read fun s =>
    s.asks.select fun _ a => a.kind = kind && a.taskId.isNone && a.isOpen
  unanswered.forM fun r => do
    writeAnswer r.1 r.2 "superseded" answeredByRuntime now
    closeAskRow r.1 now
    noticeOn none none (.askAnswered r.1 r.2.kind true)
  let _ ← openAskRow {
    kind := kind, question := question, options := options, askedBy := askedBy
    reasonCategory := .scope }

/-! Instance search sees through these operations to the steps they are made of. -/

attribute [reducible] readAsk updateAsk closeAskRow askNotice askTarget openAskRow insertAskRow
  insertAsk ask writeAnswer answerAs closeAsk closeDelivered askDelivered closePlannerAnswer
  endForRuntime closeUnclosed closeRuntimeAsks closeHoldAsks noteOnAsks joinHold openHold hold
  openUpdateAsk

end Dagq
