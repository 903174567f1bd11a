/-
# Dagq.Landing.Land -- rebase, verify and land one run.

`land` in the order of its steps.  A step that finds something the run's session has to resolve defers
the run; a failing call stops the landing.  The stages up to the update of `main` are `prepare`.
-/
import Dagq.Domain.Scope
import Dagq.Landing.Host

namespace Dagq.Landing

open Lib

variable {T : Type} (git : Git T) (host : Host T)

/-- `text.trim_end()`. -/
def trimEnd (text : String) : String :=
  String.ofList (text.toList.reverse.dropWhile isWhitespace).reverse

def scopeViolationReason (paths : List String) : String :=
  "changed paths outside the task's --paths: " ++ ", ".intercalate paths

/-! ## Stages -/

/-- The worktree: there, on the run's branch, with no rebase left; its head. -/
def openWorktree (id : RunId) (run : TaskRun) : Work CommitSha := do
  let worktree ← present "worktree" run.worktreePath
  Attempt.ensure (host.isDir = true) (.failed s!"worktree {worktree} is missing")
  call host .repairWorktree ()
  let branch ← present "branch" run.branch
  let _ ← present "run directory" run.runDir
  let left ← call host .rebaseInProgress host.rebaseLeft
  -- A rebase left behind by a crashed landing or an unfinished session is undone first.
  Attempt.when (left = true) do
    call host .rebaseAbort ()
    recordEvent host .recordRebaseAborted id (.other "integration_rebase_aborted")
  let current ← call host .currentBranch host.branch
  let place := current.getD "a detached HEAD"
  deferUnless (current = some s!"refs/heads/{branch}") .commitMismatch
    s!"worktree is on {place} instead of refs/heads/{branch}"
  call host .head host.head

/-- The receipt at its path, parsed. -/
def readReceipt (run : TaskRun) : Work Receipt := do
  let path ← present "receipt path" run.receiptPath
  match host.receipt with
  | .missing => defer .receiptMissing s!"receipt is missing at {path}"
  | .unreadable error => Attempt.stop (.failed error)
  | .text (.error reason) =>
      defer (.ofReceiptError (.malformed reason)) (ReceiptError.malformed reason).message
  | .text (.ok receipt) => return receipt

/-- The receipt must describe `head`, back the task's evidence and stand in a clean worktree; it is
recorded before it is compared with the head. -/
def checkReceipt (id : RunId) (task : Task) (branch : String) (head : CommitSha)
    (receipt : Receipt) : Work Unit := do
  Attempt.ensure (receipt.result ≠ .failed)
    (.receiptFailed s!"session reported the run as failed: {receipt.summary}" receipt)
  Attempt.lift ((receipt.checkRequiring id task.requiredEvidence).mapError fun error =>
    .deferred (.ofReceiptError error) error.message)
  let missing := receipt.missingEvidence task.requiredEvidence
  deferUnless (missing = []) .evidenceMissing (evidenceMissingReason missing)
  recordEvent host .recordReceipt id (.integrationReceipt (receipt.commit.getD 0))
  deferUnless (receipt.commit = some head) .commitMismatch
    (s!"receipt commit is not the head of {branch} ({head}); rerun your checks and rewrite the "
      ++ "receipt for the current head")
  let status ← call host .status host.status
  deferUnless (isBlank status = true) .worktreeDirty
    ("worktree is not clean:\n" ++ trimEnd status)

/-- A rebase that stopped is undone, and left to a session. -/
def rebaseConflicted (main : CommitSha) : Work Unit := do
  -- Conflicts that cannot be listed are not named.
  let conflicts := if (host.fails .conflictedFiles).isSome then [] else host.conflicts
  let left ← call host .rebaseInProgressAfter host.rebaseLeftAfter
  Attempt.when (left = true) (call host .rebaseAbortAfter ())
  let places := if conflicts = [] then "the run branch" else ", ".intercalate conflicts
  defer .rebaseConflict
    (s!"rebase onto main {main} conflicted in {places}; resolve it in the worktree (git rebase "
      ++ s!"{main}), rerun your checks, and rewrite the receipt with the new head")

/-- The branch onto `main`: its new head, with at least one commit on top of `main`. -/
def rebaseOnto (id : RunId) (main : CommitSha) : Work CommitSha := do
  let stopped ← call host .rebase host.rebaseStopped
  Attempt.when (stopped.isSome = true) (rebaseConflicted host main)
  let rebased ← call host .headAfter host.headAfter
  recordEvent host .recordRebased id (.integrationRebased rebased)
  deferUnless (rebased ≠ main) .rebaseEmpty
    (s!"no commit remains on top of main {main} after the rebase; if the change is no longer "
      ++ "needed, write a failed receipt with the reason")
  let above ← call host .isAncestor (git.isAncestor main rebased)
  Attempt.ensure (above = true)
    (.failed s!"rebased head {rebased} does not descend from main {main}")
  let status ← call host .statusAfter host.statusAfter
  deferUnless (isBlank status = true) .worktreeDirty
    ("worktree is not clean after the rebase:\n" ++ trimEnd status)
  return rebased

/-- Why a taken number is left to a session. -/
def takenReason (main : CommitSha) (next : Nat) (taken : List String) (why : String) : String :=
  let names := ", ".intercalate (taken.map MigrationNumbers.pathOf)
  let free := MigrationNumbers.digits next
  s!"{why}; main {main} already has the number of {names}, and the next free number is {free}: "
    ++ s!"renumber the run's migrations from {free} (git mv), update what refers to their numbers, "
    ++ "rerun the verification commands, and rewrite the receipt with the new head"

/-- What `renumberMigration` did to a rebased run. -/
inductive Renumbering
  | unchanged
  | renumbered (head : CommitSha)
  | blocked (reason : String)

/-- Move the migration `name`, unless the run's other changes mention its number. -/
def moveMigration (id : RunId) (main rebased : CommitSha) (next : Nat) (taken : List String)
    (name : String) : Work Renumbering := do
  let old := MigrationNumbers.pathOf name
  let oldDigits := MigrationNumbers.digits ((MigrationNumbers.number name).getD 0)
  let changed ← call host .changedByRun (git.changedPaths (git.tree main) (git.tree rebased))
  let others := changed.filter fun path => path ≠ old
  let referring ← call host .pathsContaining
    (git.pathsContaining (git.tree rebased) oldDigits others)
  if referring ≠ [] then
    let places := ", ".intercalate referring
    return .blocked (takenReason main next taken
      s!"the run's other changes mention {oldDigits} ({places})")
  else do
    let head ← call host .renameAndCommit host.renamedHead
    recordEvent host .recordRenumbered id (.other "migration_renumbered")
    return .renumbered head

/-- Renumber the migration the run adds when another file of the rebased tree has its number; a
collision of several migrations is left to a session. -/
def renumberMigration (id : RunId) (main rebased : CommitSha) : Work Renumbering := do
  let paths ← call host .addedPaths (git.addedPaths (git.tree main) (git.tree rebased))
  let added := paths.filterMap MigrationNumbers.inDirectory
  if added = [] then return .unchanged
  else do
    let there ← call host .pathsIn (git.pathsIn (git.tree rebased) MigrationNumbers.directory)
    let kept := ((there.filterMap MigrationNumbers.inDirectory).filter fun name =>
      !added.contains name).filterMap MigrationNumbers.number
    let taken := added.filter fun name => kept.contains ((MigrationNumbers.number name).getD 0)
    let next := kept.foldl max 0 + 1
    if taken = [] then return .unchanged
    else if 1 < added.length then
      return .blocked (takenReason main next taken
        s!"the run adds {added.length} migrations, which are not renumbered mechanically")
    else moveMigration git host id main rebased next taken (added.headD "")

/-- The head that lands, once its migration has a number of its own. -/
def renumber (id : RunId) (main rebased : CommitSha) : Work CommitSha := do
  let done ← renumberMigration git host id main rebased
  match done with
  | .unchanged => return rebased
  | .renumbered head => return head
  | .blocked reason => defer .migrationNumberTaken reason

/-- What lands is the squash of main..head, so that is the diff held to the task's paths. -/
def checkScope (task : Task) (main head : CommitSha) : Work Unit := do
  let changed ← call host .changedPaths (git.changedPaths (git.tree main) (git.tree head))
  let outside := outOfScope task.paths changed
  deferUnless (outside = []) .scopeViolation
    (scopeViolationReason outside ++ s!" after the rebase onto main {main}; take them out of the "
      ++ "run branch (or ask for the task's --paths to be widened), commit, and rewrite the receipt "
      ++ "with the new head")

/-- The environment of the verification commands, when there are any. -/
def checkRunEnv (task : Task) : Work Unit :=
  Attempt.when (task.verificationCommands ≠ []) do
    let missing ← call host .runEnvPrograms host.runEnvMissing
    Attempt.ensure (missing = none) (.failed (missing.getD ""))
    call host .runEnv ()

/-- The exit code a command counts with. -/
def CommandRun.exitCode (run : CommandRun T) : Int := run.code.getD 128

/-- A verification command that ran. -/
structure Verified (T : Type) where
  command : String
  run : CommandRun T

/-- The task's verification commands, in order from number `index`; the first to fail defers the run. -/
def verify (id : RunId) (main : CommitSha) : Nat → List String → Work (List (Verified T))
  | _, [] => return []
  | index, command :: rest => do
      let run ← call host (.command index) (host.command index)
      recordEvent host (.recordCommand index) id (.other "verification_command")
      deferUnless (run.exitCode = 0) .verificationFailed
        s!"verification command {command} exited with {run.exitCode} after the rebase onto {main}"
      let later ← verify id main (index + 1) rest
      return { command := command, run := run } :: later

/-! ## The landing -/

/-- What is about to be put on `main`. -/
structure Ready (T : Type) where
  receipt : Receipt
  head : CommitSha
  commit : CommitSha
  verified : List (Verified T)

/-- A run that landed. -/
structure Landed (T : Type) where
  commit : CommitSha
  sourceCommit : CommitSha
  mainBefore : CommitSha
  message : List String
  followUps : Option FollowUps
  verified : List (Verified T)

/-- One commit on `main` with the tree of `head`; the run's own history stays reachable. -/
def squash (task : Task) (id : RunId) (run : TaskRun) (main head : CommitSha)
    (receipt : Receipt) : Work CommitSha := do
  let tree ← call host .treeOf (git.tree head)
  let commit ← call host .commitTree
    (git.commitTree tree main (commitMessage task run.taskId id receipt) host.stamp)
  call host .updateRef ()
  Attempt.write fun w => { w with history := some head }
  return commit

/-- `land` up to the update of `main`. -/
def prepare (task : Task) (id : RunId) (run : TaskRun) (main : CommitSha) : Work (Ready T) := do
  let head ← openWorktree host id run
  let receipt ← readReceipt host run
  checkReceipt host id task (run.branch.getD "") head receipt
  let rebased ← rebaseOnto git host id main
  let source ← renumber git host id main rebased
  checkScope git host task main source
  checkRunEnv host task
  let verified ← verify host id main 1 task.verificationCommands
  let commit ← squash git host task id run main source receipt
  return { receipt := receipt, head := source, commit := commit, verified := verified }

/-- `advance_main`. -/
def advanceMain (main commit : CommitSha) : Work Unit := do
  call host .mainCheckout ()
  let moved ← Attempt.read fun w => advance git host.updating w.main main commit
  Attempt.write fun w => { w with main := moved.1 }
  Attempt.ensure (moved.2 = true) (.failed "fast-forward main")

/-- Rebase, verify and land one run. -/
def land (task : Task) (id : RunId) (run : TaskRun) (main : CommitSha) : Work (Landed T) := do
  let ready ← prepare git host task id run main
  advanceMain git host main ready.commit
  return {
    commit := ready.commit, sourceCommit := ready.head, mainBefore := main
    message := commitMessage task run.taskId id ready.receipt
    followUps := ready.receipt.followUps, verified := ready.verified }

/-! ## Recording the outcome -/

/-- How a landing attempt ended. -/
inductive IntegrationOutcome (T : Type)
  | integrated (landed : Landed T)
  | needsSession (reason : String)
  | failed (reason : String)
  | error (message : String)

/-- The message of an error; a verdict on the run is none. -/
def Stop.message : Stop → String
  | .failed error => error
  | .deferred _ reason => reason
  | .receiptFailed reason _ => reason

/-- The operation of the queue that records an outcome; when it is refused, its error is what the
attempt ends with. -/
def recorded {α : Type} (m : Work α) (outcome : IntegrationOutcome T) (w : World) :
    IntegrationOutcome T × World :=
  match m w with
  | (.ok _, w') => (outcome, w')
  | (.error stop, w') => (.error stop.message, w')

/-- Record what `land` ended with.  An error gives the slot back and returns the run to `previous`, and
is reported whether that succeeds or not. -/
def conclude (id : RunId) (previous : RunStatus) (token : Token) :
    Except Stop (Landed T) → World → IntegrationOutcome T × World
  | .ok landed => recorded (queueOp host .finishIntegration
      (finishIntegration id token host.now landed.commit landed.mainBefore)) (.integrated landed)
  | .error (.deferred code reason) => recorded (queueOp host .deferIntegration
      (deferIntegration id token host.now code reason)) (.needsSession reason)
  | .error (.receiptFailed reason _) => recorded (queueOp host .failIntegration
      (failIntegration id token host.now reason)) (.failed reason)
  | .error (.failed error) => fun w => (.error error, (queueOp host .abortIntegration
      (abortIntegration id token host.now previous .other
        s!"integration stopped before main moved: {error}") w).2)

/-- `land_integrating`: land a run that holds the integration slot under `token`, and record the
outcome. -/
def landIntegrating (id : RunId) (run : TaskRun) (previous : RunStatus) (main : CommitSha)
    (token : Token) (w : World) : IntegrationOutcome T × World :=
  match queueOp host .showTask (readTask run.taskId) w with
  | (.error stop, w) => (.error stop.message, w)
  | (.ok row, w) =>
      let (ended, w) := land git host row.task id run main w
      conclude host id previous token ended w

end Dagq.Landing
