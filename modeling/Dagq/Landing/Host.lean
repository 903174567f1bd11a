/-
# Dagq.Landing.Host -- what a landing meets outside itself, and the calls it makes.

A landing is one process among others: sessions write to worktrees and receipts, people move branches,
supervisors write to the queue.  So what each call finds is an answer given from outside, independent of
what an earlier one found, and any call may fail.  Two things are state, because the landing's own
effect on them matters: `main`, and the queue.  Nothing before the update of `main` looks at `main`, so
what others did to it until then is in the state a landing starts in; what others commit to the queue is
given for each call.
-/
import Dagq.Domain.MigrationNumbers
import Dagq.Domain.Receipt
import Dagq.Landing.Git
import Dagq.Lib.Attempt
import Dagq.Queue.Op

namespace Dagq.Landing

open Lib

/-! ## Answers -/

/-- The calls of a landing that can fail. -/
inductive Call
  | showTask
  | repairWorktree | rebaseInProgress | rebaseAbort | recordRebaseAborted | currentBranch | head
  | recordReceipt | status
  | rebase | conflictedFiles | rebaseInProgressAfter | rebaseAbortAfter
  | headAfter | recordRebased | isAncestor | statusAfter
  | addedPaths | pathsIn | changedByRun | pathsContaining | renameAndCommit | recordRenumbered
  | changedPaths
  | runEnvPrograms | runEnv
  | command (index : Nat) | recordCommand (index : Nat)
  | treeOf | commitTree | updateRef | mainCheckout
  | deferIntegration | failIntegration | abortIntegration | finishIntegration
  deriving DecidableEq

/-- What stands at the receipt's path. -/
inductive ReceiptFile
  | missing
  | unreadable (error : String)
  | text (parsed : Except String Receipt)

/-- A verification command that ran to its end: what the worktree's tracked files were while it ran,
and its exit code (`none` when a signal ended it). -/
structure CommandRun (T : Type) where
  found : T
  code : Option Int

/-- What a landing finds outside; `T` are git's trees. -/
structure Host (T : Type) where
  /-- The calls that fail, with the error. -/
  fails : Call → Option String := fun _ => none
  /-- What others commit to the queue right before the call. -/
  meanwhile : Call → List Op := fun _ => []
  isDir : Bool := true
  rebaseLeft : Bool := false
  branch : Option String
  head : CommitSha
  receipt : ReceiptFile
  status : String := ""
  /-- The output of a rebase that stopped. -/
  rebaseStopped : Option String := none
  conflicts : List String := []
  rebaseLeftAfter : Bool := false
  headAfter : CommitSha
  statusAfter : String := ""
  renamedHead : CommitSha
  runEnvMissing : Option String := none
  command : Nat → CommandRun T
  stamp : Nat
  updating : Updating
  now : Seconds

/-! ## State -/

/-- What a landing itself changes. -/
structure World where
  /-- `refs/heads/main`. -/
  main : CommitSha
  /-- `refs/dagq/runs/<run-id>`. -/
  history : Option CommitSha
  store : Store
  /-- The operations of the queue that were refused to this landing. -/
  refused : List Call

/-- Why a landing does not land its run: a verdict on the run, or a failure of the landing itself. -/
inductive Stop
  | deferred (code : ReasonCode) (reason : String)
  | receiptFailed (reason : String) (receipt : Receipt)
  | failed (error : String)

abbrev Work (α : Type) : Type := Attempt World Stop α

section Calls

variable {T : Type} (host : Host T)

/-- A call that changes nothing here, with the answer it has when it succeeds. -/
def call {α : Type} (c : Call) (answer : α) : Work α :=
  match host.fails c with
  | some error => Attempt.stop (.failed error)
  | none => pure answer

theorem call_ok {host : Host T} {α : Type} {c : Call} {answer a : α} {w w' : World} :
    call host c answer w = (.ok a, w') ↔ host.fails c = none ∧ answer = a ∧ w = w' := by
  unfold call
  cases hfails : host.fails c <;> simp

def defer {α : Type} (code : ReasonCode) (reason : String) : Work α :=
  Attempt.stop (.deferred code reason)

def deferUnless (c : Prop) [Decidable c] (code : ReasonCode) (reason : String) : Work Unit :=
  Attempt.ensure c (.deferred code reason)

/-- A path or name the run should have by now. -/
def present {α : Type} (what : String) (value : Option α) : Work α :=
  Attempt.found (.failed s!"missing {what}") value

/-- An operation of the queue, after what others commit right before it. -/
def queueOp {α : Type} (c : Call) (m : Tx α) : Work α := fun w =>
  let s := queue.runFrom w.store (host.meanwhile c)
  match host.fails c with
  | some error => (.error (.failed error), { w with store := s, refused := w.refused ++ [c] })
  | none =>
      match m s with
      | .ok (a, s') => (.ok a, { w with store := s' })
      | .error _ =>
          (.error (.failed "the queue refused"), { w with store := s, refused := w.refused ++ [c] })

/-- `record_runtime_event`. -/
def recordEvent (c : Call) (id : RunId) (event : RuntimeEvent) : Work Unit :=
  queueOp host c (recordRuntimeEvent id event)

end Calls

end Dagq.Landing
