/-
# Dagq.Domain.Run -- the run aggregate: one attempt at a task, from its claim to its landing.

The commands below are the only way a run's status moves.  Each takes the run and returns it
changed, or refuses naming the status it found and the operation.  The lemma next to each command
says when it is accepted and what it leaves.  There is one provider, so the provider columns are not
kept, and neither is the creation time.
-/
import Dagq.Domain.Task

namespace Dagq

/-- Where a claimed run is provisioned. -/
structure RunPlan where
  repoPath : String
  runDir : String
  branch : String
  worktreePath : String
  receiptPath : String
  logPath : String

/-- A run of a task. -/
structure TaskRun where
  taskId : TaskId
  status : RunStatus
  baseCommit : CommitSha
  branch : Option String := none
  worktreePath : Option String := none
  workspaceId : Option String := none
  receiptPath : Option String := none
  logPath : Option String := none
  resultCommit : Option CommitSha := none
  repoPath : Option String := none
  runDir : Option String := none
  lastError : Option String := none
  /-- Set once cmux confirmed the close; `none` keeps the run out of any cleaned state. -/
  workspaceClosedAt : Option Seconds := none

/-- Executing, awaiting or undergoing integration, or waiting for a session: the statuses of the
unique index `one_unfinished_run_per_task` and of `has_unfinished_run`. -/
def RunStatus.unfinished : RunStatus → Bool
  | .claimed | .starting | .running | .validating | .awaitingIntegration | .integrating
  | .needsSession => true
  | _ => false

namespace TaskRun

/-- The run a supervisor starts when it claims the task (already moved to `inProgress`). -/
def create (taskId : TaskId) (task : Task) (baseCommit : CommitSha) : Except DomainError TaskRun := do
  require (task.status = .inProgress) (.runOfUnclaimedTask taskId task.status)
  return { taskId := taskId, status := .claimed, baseCommit := baseCommit }

/-- Refuses `operation` unless the run is in one of `allowed`. -/
def requireStatus (run : TaskRun) (allowed : List RunStatus) (operation : String) :
    Except DomainError Unit :=
  require (allowed.contains run.status) (.runTransitionNotAllowed run.status operation)

/-- Executing under a supervisor or being landed: what `recover` takes back. -/
def unfinishedStatuses : List RunStatus := [.claimed, .starting, .running, .validating, .integrating]

/-- `claimed` to `starting`: the supervisor planned where the run lives. -/
def startProvisioning (run : TaskRun) (plan : RunPlan) : Except DomainError TaskRun := do
  requireStatus run [.claimed] "provision"
  return { run with
    status := .starting
    repoPath := some plan.repoPath
    runDir := some plan.runDir
    branch := some plan.branch
    worktreePath := some plan.worktreePath
    receiptPath := some plan.receiptPath
    logPath := some plan.logPath }

/-- A starting run gets its cmux workspace once. -/
def attachWorkspace (run : TaskRun) (workspaceId : String) : Except DomainError TaskRun := do
  requireStatus run [.starting] "attach a workspace to"
  require run.workspaceId.isNone
    (.runTransitionNotAllowed run.status "attach a second workspace to")
  return { run with workspaceId := some workspaceId }

/-- Whether the session wrapper may register: the run is starting in its workspace. -/
def checkReadyForWrapper (run : TaskRun) : Except DomainError Unit := do
  requireStatus run [.starting] "start the wrapper of"
  require run.workspaceId.isSome
    (.runTransitionNotAllowed run.status "start the wrapper without a workspace of")

/-- `starting` to `running`: the agent registered. -/
def markRunning (run : TaskRun) : Except DomainError TaskRun := do
  requireStatus run [.starting] "mark running"
  return { run with status := .running }

/-- The session ended (`exitCode`) or went idle after its receipt with the session still open
(`none`): `validating`, except that a non-zero exit fails the run with the code as `lastError`. -/
def finishSession (run : TaskRun) (exitCode : Option Int) : Except DomainError TaskRun := do
  requireStatus run [.starting, .running] "finish the session of"
  return match exitCode with
    | some code =>
        if code ≠ 0 then
          { run with status := .failed, lastError := some s!"session exited with code {code}" }
        else { run with status := .validating }
    | none => { run with status := .validating }

/-- `validating` to `awaitingIntegration`: the receipt names `resultCommit`, the clean head of the
run branch. -/
def accept (run : TaskRun) (resultCommit : CommitSha) : Except DomainError TaskRun := do
  requireStatus run [.validating] "accept"
  return { run with status := .awaitingIntegration, resultCommit := some resultCommit }

/-- Validation refused the receipt: `resumable` parks the run, otherwise it fails.  `resultCommit`
is the commit if it was verified; `reason`, when given, becomes `lastError`. -/
def reject (run : TaskRun) (resultCommit : Option CommitSha) (reason : Option String)
    (resumable : Bool) : Except DomainError TaskRun := do
  requireStatus run [.validating] "reject"
  return { run with
    status := if resumable then .needsSession else .failed
    resultCommit := resultCommit
    lastError := reason <|> run.lastError }

/-- `awaitingIntegration` to `validating`: the live session rewrote its receipt. -/
def restartValidation (run : TaskRun) : Except DomainError TaskRun := do
  requireStatus run [.awaitingIntegration] "validate again"
  return { run with status := .validating }

/-- A person's `send_back` (`needsSession`) or `cancel` (`failed`) answer to an `approve_landing`
ask, with `reason` as `lastError`. -/
def decideLanding (run : TaskRun) (target : RunStatus) (reason : String) :
    Except DomainError TaskRun := do
  requireStatus run [.awaitingIntegration] "decide the landing of"
  require (target = .needsSession || target = .failed)
    (.runTransitionNotAllowed run.status "decide a landing other than a send-back or a cancel for")
  return { run with status := target, lastError := some reason }

/-- `awaitingIntegration` to `needsSession`: the landing recheck found that the waiting run no longer
lands on main. -/
def parkAfterRecheck (run : TaskRun) (reason : String) : Except DomainError TaskRun := do
  requireStatus run [.awaitingIntegration] "park after a landing recheck"
  return { run with status := .needsSession, lastError := some reason }

/-- A runtime error on the run: `message` becomes `lastError` and the status stays. -/
def abandon (run : TaskRun) (message : String) : Except DomainError TaskRun :=
  return { run with lastError := some message }

/-- Take back a run whose processes are gone: an executing run becomes `interrupted`, one left
mid-integration goes back to `awaitingIntegration`, and one awaiting integration stays so. -/
def interrupt (run : TaskRun) : Except DomainError TaskRun :=
  if run.status = .awaitingIntegration then .ok run
  else do
    requireStatus run unfinishedStatuses "recover"
    return { run with
      status := if run.status = .integrating then .awaitingIntegration else .interrupted }

/-- A run awaiting integration, or one back from a session, takes the integration slot. -/
def beginIntegration (run : TaskRun) : Except DomainError TaskRun := do
  requireStatus run [.awaitingIntegration, .needsSession] "integrate"
  return { run with status := .integrating }

/-- Leave the integration slot for `to` with `reason` as `lastError`. -/
def leaveIntegration (run : TaskRun) (target : RunStatus) (reason operation : String) :
    Except DomainError TaskRun := do
  requireStatus run [.integrating] operation
  return { run with status := target, lastError := some reason }

/-- The landing needs a session: `integrating` to `needsSession`. -/
def deferIntegration (run : TaskRun) (reason : String) : Except DomainError TaskRun :=
  leaveIntegration run .needsSession reason "defer the integration of"

/-- The rewritten receipt reports `failed`: `integrating` to `failed`. -/
def failIntegration (run : TaskRun) (reason : String) : Except DomainError TaskRun :=
  leaveIntegration run .failed reason "fail the integration of"

/-- An error before `main` moved: back to `revertTo`, the status the run had when the landing
started. -/
def abortIntegration (run : TaskRun) (revertTo : RunStatus) (message : String) :
    Except DomainError TaskRun := do
  require (revertTo = .awaitingIntegration || revertTo = .needsSession)
    (.runTransitionNotAllowed run.status "return to a status it could not have integrated from")
  leaveIntegration run revertTo message "abort the integration of"

/-- The run landed as `commit`: `integrating` to `integrated`, and the error of any earlier attempt
is cleared. -/
def finishIntegration (run : TaskRun) (commit : CommitSha) : Except DomainError TaskRun := do
  requireStatus run [.integrating] "finish the integration of"
  return { run with status := .integrated, resultCommit := some commit, lastError := none }

/-- Whether the run may be leased for a resume: it is waiting for a session. -/
def checkResumable (run : TaskRun) : Except DomainError Unit :=
  requireStatus run [.needsSession] "resume"

/-- A resume is skipped because an earlier attempt already resolved the run: an `approved` one stays
`needsSession` for its landing, any other is validated again. -/
def skipResume (run : TaskRun) (approved : Bool) : Except DomainError TaskRun := do
  checkResumable run
  return if approved then run else { run with status := .validating }

/-- A resumed session ended with the run `to`; `reason`, when given, becomes `lastError`. -/
def finishResume (run : TaskRun) (target : RunStatus) (reason : Option String) :
    Except DomainError TaskRun := do
  requireStatus run [.needsSession] "finish the resume of"
  require (target = .validating || target = .awaitingIntegration || target = .failed)
    (.runTransitionNotAllowed run.status "end a resume in a status a session cannot reach for")
  return { run with status := target, lastError := reason <|> run.lastError }

/-- Resumes are used up: `needsSession` to `failed` with `reason`, for a person to decide. -/
def exhaustResumes (run : TaskRun) (reason : String) : Except DomainError TaskRun := do
  checkResumable run
  return { run with status := .failed, lastError := some reason }

/-- Only a `failed` or `interrupted` run is triaged. -/
def checkTriageable (run : TaskRun) : Except DomainError Unit :=
  requireStatus run [.failed, .interrupted] "triage"

/-- The triage (or a person's answer to it) resumes the run: `needsSession` with `instruction` as
`lastError`. -/
def resumeAfterTriage (run : TaskRun) (instruction : String) : Except DomainError TaskRun := do
  checkTriageable run
  return { run with status := .needsSession, lastError := some instruction }

def requireOpenWorkspaceAtRest (run : TaskRun) (operation : String) : Except DomainError Unit := do
  requireStatus run [.awaitingIntegration, .needsSession] operation
  require run.workspaceClosedAt.isNone (.runTransitionNotAllowed run.status operation)

/-- cmux confirmed the close of the workspace of a run that came to rest. -/
def workspaceClosed (run : TaskRun) (closedAt : Seconds) : Except DomainError TaskRun := do
  requireOpenWorkspaceAtRest run "close the workspace of"
  require run.workspaceId.isSome
    (.runTransitionNotAllowed run.status "close the workspace it never had of")
  return { run with workspaceClosedAt := some closedAt }

/-- The triage or the supervisor's sweep closed `workspaceId`: the run's own workspace is recorded as
closed; a resume's leaves the run as it is. -/
def recordClosedWorkspace (run : TaskRun) (workspaceId : String) (closedAt : Seconds) :
    Except DomainError TaskRun :=
  return if run.workspaceId = some workspaceId ∧ run.workspaceClosedAt.isNone then
      { run with workspaceClosedAt := some closedAt }
    else run

/-- The workspace of a run at rest could not be closed: `message` becomes `lastError`. -/
def recordCloseFailure (run : TaskRun) (message : String) : Except DomainError TaskRun := do
  requireOpenWorkspaceAtRest run "record a failed close of the workspace of"
  return { run with lastError := some message }

/-- A cleanup after the landing failed: `message` becomes `lastError` of a run whose status no
longer changes. -/
def recordCleanupFailure (run : TaskRun) (message : String) : Except DomainError TaskRun :=
  return { run with lastError := some message }

/-! ## What the commands do -/

theorem requireStatus_ok {run : TaskRun} {allowed : List RunStatus} {operation : String} {u : Unit} :
    requireStatus run allowed operation = .ok u ↔ run.status ∈ allowed := by
  simp [requireStatus]

/-- How a command moves the two columns the queue's invariants are about, from a run in `source`:
its status and its recorded result commit. -/
structure MovesTo (run run' : TaskRun) (source : RunStatus → Prop) (status : RunStatus)
    (resultCommit : Option CommitSha) : Prop where
  source_ok : source run.status
  taskId_eq : run'.taskId = run.taskId
  status_eq : run'.status = status
  resultCommit_eq : run'.resultCommit = resultCommit

section Commands

variable {run run' : TaskRun}

theorem startProvisioning_ok {plan : RunPlan} (h : run.startProvisioning plan = .ok run') :
    MovesTo run run' (· = .claimed) .starting run.resultCommit := by
  simp only [startProvisioning, except_bind_ok, except_pure_ok, requireStatus_ok] at h
  obtain ⟨_, hs, rfl⟩ := h
  exact ⟨by simpa using hs, rfl, rfl, rfl⟩

theorem attachWorkspace_ok {workspaceId : String} (h : run.attachWorkspace workspaceId = .ok run') :
    MovesTo run run' (· = .starting) run.status run.resultCommit := by
  simp only [attachWorkspace, except_bind_ok, except_pure_ok, requireStatus_ok] at h
  obtain ⟨_, hs, _, _, rfl⟩ := h
  exact ⟨by simpa using hs, rfl, rfl, rfl⟩

theorem markRunning_ok (h : run.markRunning = .ok run') :
    MovesTo run run' (· = .starting) .running run.resultCommit := by
  simp only [markRunning, except_bind_ok, except_pure_ok, requireStatus_ok] at h
  obtain ⟨_, hs, rfl⟩ := h
  exact ⟨by simpa using hs, rfl, rfl, rfl⟩

theorem finishSession_ok {exitCode : Option Int} (h : run.finishSession exitCode = .ok run') :
    MovesTo run run' (fun s => s = .starting ∨ s = .running) .validating run.resultCommit ∨
      MovesTo run run' (fun s => s = .starting ∨ s = .running) .failed run.resultCommit := by
  simp only [finishSession, except_bind_ok, except_pure_ok, requireStatus_ok] at h
  obtain ⟨_, hs, rfl⟩ := h
  have hs : run.status = .starting ∨ run.status = .running := by simpa using hs
  cases exitCode with
  | none => exact .inl ⟨hs, rfl, rfl, rfl⟩
  | some code =>
      by_cases hc : code = 0
      · subst hc
        exact .inl ⟨hs, rfl, rfl, rfl⟩
      · refine .inr ⟨hs, ?_, ?_, ?_⟩ <;> simp [hc]

theorem accept_ok {resultCommit : CommitSha} (h : run.accept resultCommit = .ok run') :
    MovesTo run run' (· = .validating) .awaitingIntegration (some resultCommit) := by
  simp only [accept, except_bind_ok, except_pure_ok, requireStatus_ok] at h
  obtain ⟨_, hs, rfl⟩ := h
  exact ⟨by simpa using hs, rfl, rfl, rfl⟩

theorem reject_ok {resultCommit : Option CommitSha} {reason : Option String} {resumable : Bool}
    (h : run.reject resultCommit reason resumable = .ok run') :
    MovesTo run run' (· = .validating) (if resumable then .needsSession else .failed)
      resultCommit := by
  simp only [reject, except_bind_ok, except_pure_ok, requireStatus_ok] at h
  obtain ⟨_, hs, rfl⟩ := h
  exact ⟨by simpa using hs, rfl, rfl, rfl⟩

theorem restartValidation_ok (h : run.restartValidation = .ok run') :
    MovesTo run run' (· = .awaitingIntegration) .validating run.resultCommit := by
  simp only [restartValidation, except_bind_ok, except_pure_ok, requireStatus_ok] at h
  obtain ⟨_, hs, rfl⟩ := h
  exact ⟨by simpa using hs, rfl, rfl, rfl⟩

theorem decideLanding_ok {target : RunStatus} {reason : String}
    (h : run.decideLanding target reason = .ok run') :
    (target = .needsSession ∨ target = .failed) ∧
      MovesTo run run' (· = .awaitingIntegration) target run.resultCommit := by
  simp only [decideLanding, except_bind_ok, except_pure_ok, requireStatus_ok, require_ok] at h
  obtain ⟨_, hs, _, hto, rfl⟩ := h
  exact ⟨by simpa using hto, by simpa using hs, rfl, rfl, rfl⟩

theorem parkAfterRecheck_ok {reason : String} (h : run.parkAfterRecheck reason = .ok run') :
    MovesTo run run' (· = .awaitingIntegration) .needsSession run.resultCommit := by
  simp only [parkAfterRecheck, except_bind_ok, except_pure_ok, requireStatus_ok] at h
  obtain ⟨_, hs, rfl⟩ := h
  exact ⟨by simpa using hs, rfl, rfl, rfl⟩

theorem abandon_ok {message : String} (h : run.abandon message = .ok run') :
    MovesTo run run' (fun _ => True) run.status run.resultCommit := by
  simp only [abandon, except_pure_ok] at h
  subst h
  exact ⟨trivial, rfl, rfl, rfl⟩

/-- Where `interrupt` takes a run back to. -/
def interruptTarget : RunStatus → RunStatus
  | .awaitingIntegration | .integrating => .awaitingIntegration
  | _ => .interrupted

theorem interrupt_ok (h : run.interrupt = .ok run') :
    MovesTo run run' (fun s => s = .awaitingIntegration ∨ s ∈ unfinishedStatuses)
      (interruptTarget run.status) run.resultCommit := by
  unfold interrupt at h
  split at h
  · rename_i hs
    cases h
    exact ⟨.inl hs, rfl, by rw [hs]; rfl, rfl⟩
  · simp only [except_bind_ok, except_pure_ok, requireStatus_ok] at h
    obtain ⟨_, hs, rfl⟩ := h
    refine ⟨.inr hs, rfl, ?_, rfl⟩
    simp only [unfinishedStatuses, List.mem_cons, List.not_mem_nil, or_false] at hs
    rcases hs with hs | hs | hs | hs | hs <;> simp [hs, interruptTarget]

theorem beginIntegration_ok (h : run.beginIntegration = .ok run') :
    MovesTo run run' (fun s => s = .awaitingIntegration ∨ s = .needsSession) .integrating
      run.resultCommit := by
  simp only [beginIntegration, except_bind_ok, except_pure_ok, requireStatus_ok] at h
  obtain ⟨_, hs, rfl⟩ := h
  exact ⟨by simpa using hs, rfl, rfl, rfl⟩

theorem leaveIntegration_ok {target : RunStatus} {reason operation : String}
    (h : run.leaveIntegration target reason operation = .ok run') :
    MovesTo run run' (· = .integrating) target run.resultCommit := by
  simp only [leaveIntegration, except_bind_ok, except_pure_ok, requireStatus_ok] at h
  obtain ⟨_, hs, rfl⟩ := h
  exact ⟨by simpa using hs, rfl, rfl, rfl⟩

theorem abortIntegration_ok {revertTo : RunStatus} {message : String}
    (h : run.abortIntegration revertTo message = .ok run') :
    (revertTo = .awaitingIntegration ∨ revertTo = .needsSession) ∧
      MovesTo run run' (· = .integrating) revertTo run.resultCommit := by
  simp only [abortIntegration, except_bind_ok, require_ok] at h
  obtain ⟨_, hto, h⟩ := h
  exact ⟨by simpa using hto, leaveIntegration_ok h⟩

theorem finishIntegration_ok {commit : CommitSha} (h : run.finishIntegration commit = .ok run') :
    MovesTo run run' (· = .integrating) .integrated (some commit) := by
  simp only [finishIntegration, except_bind_ok, except_pure_ok, requireStatus_ok] at h
  obtain ⟨_, hs, rfl⟩ := h
  exact ⟨by simpa using hs, rfl, rfl, rfl⟩

theorem skipResume_ok {approved : Bool} (h : run.skipResume approved = .ok run') :
    MovesTo run run' (· = .needsSession) (if approved then .needsSession else .validating)
      run.resultCommit := by
  simp only [skipResume, checkResumable, except_bind_ok, except_pure_ok, requireStatus_ok] at h
  obtain ⟨_, hs, rfl⟩ := h
  have hs : run.status = .needsSession := by simpa using hs
  cases approved
  · exact ⟨hs, rfl, rfl, rfl⟩
  · exact ⟨hs, rfl, hs, rfl⟩

theorem finishResume_ok {target : RunStatus} {reason : Option String}
    (h : run.finishResume target reason = .ok run') :
    (target = .validating ∨ target = .awaitingIntegration ∨ target = .failed) ∧
      MovesTo run run' (· = .needsSession) target run.resultCommit := by
  simp only [finishResume, except_bind_ok, except_pure_ok, requireStatus_ok, require_ok] at h
  obtain ⟨_, hs, _, hto, rfl⟩ := h
  exact ⟨by simpa [or_assoc] using hto, by simpa using hs, rfl, rfl, rfl⟩

theorem exhaustResumes_ok {reason : String} (h : run.exhaustResumes reason = .ok run') :
    MovesTo run run' (· = .needsSession) .failed run.resultCommit := by
  simp only [exhaustResumes, checkResumable, except_bind_ok, except_pure_ok, requireStatus_ok] at h
  obtain ⟨_, hs, rfl⟩ := h
  exact ⟨by simpa using hs, rfl, rfl, rfl⟩

theorem resumeAfterTriage_ok {instruction : String}
    (h : run.resumeAfterTriage instruction = .ok run') :
    MovesTo run run' (fun s => s = .failed ∨ s = .interrupted) .needsSession run.resultCommit := by
  simp only [resumeAfterTriage, checkTriageable, except_bind_ok, except_pure_ok,
    requireStatus_ok] at h
  obtain ⟨_, hs, rfl⟩ := h
  exact ⟨by simpa using hs, rfl, rfl, rfl⟩

theorem workspaceClosed_ok {closedAt : Seconds} (h : run.workspaceClosed closedAt = .ok run') :
    MovesTo run run' (fun s => s = .awaitingIntegration ∨ s = .needsSession) run.status
      run.resultCommit := by
  simp only [workspaceClosed, requireOpenWorkspaceAtRest, except_bind_ok, except_pure_ok,
    requireStatus_ok] at h
  obtain ⟨_, ⟨_, hs, _⟩, _, _, rfl⟩ := h
  exact ⟨by simpa using hs, rfl, rfl, rfl⟩

theorem recordCloseFailure_ok {message : String} (h : run.recordCloseFailure message = .ok run') :
    MovesTo run run' (fun s => s = .awaitingIntegration ∨ s = .needsSession) run.status
      run.resultCommit := by
  simp only [recordCloseFailure, requireOpenWorkspaceAtRest, except_bind_ok, except_pure_ok,
    requireStatus_ok] at h
  obtain ⟨_, ⟨_, hs, _⟩, rfl⟩ := h
  exact ⟨by simpa using hs, rfl, rfl, rfl⟩

theorem recordClosedWorkspace_ok {workspaceId : String} {closedAt : Seconds}
    (h : run.recordClosedWorkspace workspaceId closedAt = .ok run') :
    MovesTo run run' (fun _ => True) run.status run.resultCommit := by
  simp only [recordClosedWorkspace, except_pure_ok] at h
  split at h <;> subst h <;> exact ⟨trivial, rfl, rfl, rfl⟩

theorem recordCleanupFailure_ok {message : String}
    (h : run.recordCleanupFailure message = .ok run') :
    MovesTo run run' (fun _ => True) run.status run.resultCommit := by
  simp only [recordCleanupFailure, except_pure_ok] at h
  subst h
  exact ⟨trivial, rfl, rfl, rfl⟩

theorem create_ok {taskId : TaskId} {task : Task} {baseCommit : CommitSha}
    (h : create taskId task baseCommit = .ok run) :
    run.taskId = taskId ∧ run.status = .claimed ∧ run.resultCommit = none := by
  simp only [create, except_bind_ok, except_pure_ok] at h
  obtain ⟨_, _, rfl⟩ := h
  exact ⟨rfl, rfl, rfl⟩

end Commands

end TaskRun

end Dagq
