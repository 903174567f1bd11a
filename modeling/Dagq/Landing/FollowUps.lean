/-
# Dagq.Landing.FollowUps -- the follow-ups of a landed run, registered as drafts.

A landed receipt proposes follow-ups, and each well-formed one becomes a draft of the task's goal.  The
registration may be cut off between two of them and called again: which entries were handled is read
back from the `follow_up_registered` events of the run, by their index, and these are kept here in a
list of their own.  What others commit to the queue right before an operation, and which operations
fail, is given from outside for each call.
-/
import Dagq.Queue.Op

namespace Dagq.FollowUps

open Lib

/-! ## Entries -/

/-- A JSON value; a number stays as written. -/
inductive Value
  | null
  | bool (value : Bool)
  | number (text : String)
  | string (text : String)
  | array (items : List Value)
  | object (fields : List (String × Value))

namespace Value

/-- `value[key]`: null where there is none. -/
def get : Value → String → Value
  | .object fields, key => ((fields.find? (·.1 = key)).map (·.2)).getD .null
  | _, _ => .null

def asStr : Value → Option String
  | .string text => some text
  | _ => none

def asArray : Value → Option (List Value)
  | .array items => some items
  | _ => none

end Value

/-- The title an entry proposes, trimmed; empty without one. -/
def title (entry : Value) : String :=
  ((entry.get "title").asStr.map fun text => String.ofList (trimChars text)).getD ""

/-- Why an entry is not registered. -/
def skipped (entry : Value) : Option String :=
  if title entry = "" then some "title is not a non-blank string"
  else if (entry.get "description").asStr.isNone then some "description is not a string"
  else none

/-- The draft of an entry: no acceptance, verification commands or dependencies, and a context naming
where it came from.  A closed goal takes no task. -/
def newTask (source : TaskId) (task : Task) (runId : RunId) (goalClosed : Bool) (entry : Value) :
    NewTask where
  title := title entry
  description := (entry.get "description").asStr.getD ""
  goalId := task.goalId.filter fun _ => !goalClosed
  context := s!"task {source}（{task.title}）の run {runId} の receipt が提案した follow_up"

/-! ## Calls -/

/-- The operations of a call on the queue. -/
inductive Step
  | runEvents | showGoal | depth
  | add (index : Nat) | setDepth (index : Nat) | origin (index : Nat) | record (index : Nat)
  deriving DecidableEq

/-- A call of the registration, for the landed run of a task. -/
structure Call where
  source : TaskId
  task : Task
  /-- The operations that fail. -/
  fails : Step → Bool := fun _ => false
  /-- What others commit to the queue right before the operation. -/
  meanwhile : Step → List Op := fun _ => []
  /-- The entry before which the call is cut off. -/
  cut : Option Nat := none

/-- `follow_up_registered`: of an entry not registered, why, and the entry itself. -/
structure Record where
  runId : RunId
  index : Nat
  taskId : Option TaskId
  title : Value
  skipped : Option String := none
  followUp : Option Value := none
  goalClosed : Bool := false

/-- A task `add` registered for an entry. -/
structure Added where
  runId : RunId
  index : Nat
  taskId : TaskId
  new : NewTask

/-- The queue, with the events of the registrations, the tasks added so far and the operations that
failed. -/
structure Desk where
  store : Store
  records : List Record := []
  added : List Added := []
  refused : List Step := []

structure RegisteredFollowUp where
  taskId : TaskId
  title : String
  deriving DecidableEq

section Registration

variable {α : Type} (call : Call) (runId : RunId)

/-- An operation, after what others commit right before it. -/
def attempt (step : Step) (m : Tx α) (desk : Desk) : Option α × Desk :=
  let s := queue.runFrom desk.store (call.meanwhile step)
  let refused := (none, { desk with store := s, refused := desk.refused ++ [step] })
  if call.fails step then refused
  else match m s with
    | .ok (a, s') => (some a, { desk with store := s' })
    | .error _ => refused

/-- `record_runtime_event`; a failure is only reported. -/
def recordEntry (record : Record) (desk : Desk) : Desk :=
  match attempt call (.record record.index)
      (recordRuntimeEvent record.runId (.other "follow_up_registered")) desk with
  | (some _, desk) => { desk with records := desk.records ++ [record] }
  | (none, desk) => desk

/-- Register one entry, or record why not. -/
def registerEntry (goalClosed : Bool) (depth : Nat) (entry : Value) (index : Nat) (desk : Desk) :
    Option RegisteredFollowUp × Desk :=
  match skipped entry with
  | some reason =>
      (none, recordEntry call { runId, index, taskId := none, title := entry.get "title",
                                skipped := some reason, followUp := some entry } desk)
  | none =>
      let new := newTask call.source call.task runId goalClosed entry
      match attempt call (.add index) (insertTask new) desk with
      | (none, desk) => (none, desk)
      | (some created, desk) =>
          let desk := { desk with added := desk.added ++ [⟨runId, index, created, new⟩] }
          let desk := (attempt call (.setDepth index) (setFollowUpDepth created depth) desk).2
          -- The draft waits for a planner of the runtime's.
          let desk := (attempt call (.origin index) (recordDraftOrigin created .followUp) desk).2
          (some ⟨created, new.title⟩,
            recordEntry call { runId, index, taskId := some created, title := .string new.title,
                               goalClosed } desk)

/-- The entries not recorded when the call began, one after the other. -/
def registerEntries (goalClosed : Bool) (depth : Nat) (registered : List Nat) :
    List (Value × Nat) → Desk → List RegisteredFollowUp × Desk
  | [], desk => ([], desk)
  | (entry, index) :: rest, desk =>
      if index ∈ registered then registerEntries goalClosed depth registered rest desk
      else
        let (added, desk) := registerEntry call runId goalClosed depth entry index desk
        let (more, desk) := registerEntries goalClosed depth registered rest desk
        (added.toList ++ more, desk)

/-- The indexes the run's events name. -/
def registeredIndexes (desk : Desk) : List Nat :=
  (desk.records.filter (·.runId = runId)).map (·.index)

/-- Whether the task's goal is closed by now. -/
def readGoalClosed (desk : Desk) : Option Bool × Desk :=
  match call.task.goalId with
  | some goalId =>
      attempt call .showGoal (do let row ← readGoal goalId; return row.goal.isClosed) desk
  | none => (some false, desk)

/-- One follow-up deeper than the task; a depth that could not be read counts as the deepest that still
asks. -/
def readDepth (desk : Desk) : Nat × Desk :=
  match attempt call .depth (do let row ← readTask call.source; return row.followUpDepth) desk with
  | (some depth, desk) => (depth + 1, desk)
  | (none, desk) => (followUpAskDepth, desk)

/-- The entries a call gets to. -/
def Call.reached (entries : List Value) : List (Value × Nat) :=
  match call.cut with
  | none => entries.zipIdx
  | some n => entries.zipIdx.take n

/-- `register_follow_ups`. -/
def registerFollowUps (followUps : Option Value) (desk : Desk) : List RegisteredFollowUp × Desk :=
  match followUps.bind Value.asArray with
  | none => ([], desk)
  | some entries =>
      match attempt call .runEvents (pure ()) desk with
      | (none, desk) => ([], desk)
      | (some _, desk) =>
          let registered := registeredIndexes runId desk
          match readGoalClosed call desk with
          | (none, desk) => ([], desk)
          | (some goalClosed, desk) =>
              let (depth, desk) := readDepth call desk
              registerEntries call runId goalClosed depth registered (call.reached entries) desk

end Registration

/-- The desk after some calls for the same run. -/
def afterCalls (runId : RunId) (followUps : Option Value) (calls : List Call) (desk : Desk) : Desk :=
  calls.foldl (fun desk call => (registerFollowUps call runId followUps desk).2) desk

end Dagq.FollowUps
