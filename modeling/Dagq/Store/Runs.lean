/-
# Dagq.Store.Runs -- runs, leases and processes: what a supervisor, a landing and a recovery write.

Each operation is one transaction.  A status of a run moves through `apply` only: the domain command
decides, and saving the row checks the unique indexes of `task_runs`.  An operation guarded by a lease
starts with `renewLease`.
-/
import Dagq.Store.Tasks

namespace Dagq

open Lib

/-! ## Saving a run -/

/-- The unique indexes of `task_runs`: one unfinished run per task, one integrated run per task, one
integrating run per queue. -/
def Store.runIsUnique (s : Store) (id : RunId) (run : TaskRun) : Bool :=
  !s.runs.any fun id' row =>
    id' != id &&
      ((run.status.unfinished && row.run.status.unfinished && row.run.taskId = run.taskId)
        || (run.status = .integrated && row.run.status = .integrated
          && row.run.taskId = run.taskId)
        || (run.status = .integrating && row.run.status = .integrating))

def saveRun (id : RunId) (run : TaskRun) : Tx Unit := do
  let unique ← Txn.read fun s => s.runIsUnique id run
  Txn.ensure (unique = true) (.constraint "task_runs")
  Txn.write fun s => { s with runs := s.runs.modify id fun row => { row with run := run } }

/-- Read the run, apply the domain `command` and save the result.  A missing run, a refused command
and, with a `token`, a run under another supervisor all fail with `refusal`. -/
def apply (id : RunId) (token : Option Token) (refusal : String)
    (command : TaskRun → Except DomainError TaskRun) : Tx TaskRun := do
  let row ← readRun id refusal
  let run ← Txn.lift ((command row.run).mapError fun _ => .refused refusal)
  Tx.ensure (token.all (row.supervisorToken = some ·)) refusal
  saveRun id run
  return run

def insertRun (id : RunId) (run : TaskRun) : Tx Unit := do
  let known ← Txn.read fun s => s.runs.get? id
  Txn.ensure (known.isNone = true) (.constraint "task_runs.id")
  let unique ← Txn.read fun s => s.runIsUnique id run
  Txn.ensure (unique = true) (.constraint "task_runs")
  Txn.write fun s => { s with runs := s.runs.push id { run := run } }

/-- Make `token` the supervisor on record of the run. -/
def setSupervisor (id : RunId) (token : Token) : Tx Unit :=
  Txn.write fun s =>
    { s with runs := s.runs.modify id fun row => { row with supervisorToken := some token } }

/-! ## Leases and processes -/

def readLease (id : RunId) : Tx (Option Lease) := Txn.read fun s => s.leases.get? id

def insertLease (id : RunId) (lease : Lease) : Tx Unit := do
  let known ← readLease id
  Txn.ensure (known.isNone = true) (.constraint "run_leases.run_id")
  Txn.write fun s => { s with leases := s.leases.push id lease }

/-- Remove the run's lease, whoever holds it; whether there was one. -/
def deleteLease (id : RunId) : Tx Bool := do
  let lease ← readLease id
  Txn.write fun s => { s with leases := s.leases.erase id }
  return lease.isSome

/-- Remove the run's lease if `token` holds it; whether it did. -/
def dropLease (id : RunId) (token : Token) : Tx Bool := do
  let held ← Txn.read fun s => decide (s.holder id = some token)
  Txn.when (held = true) (Txn.write fun s => { s with leases := s.leases.erase id })
  return held

/-- Renew `token`'s lease on the run, or refuse when the lease is gone or carries another token.  A
heartbeat that is old is no reason to refuse. -/
def renewLease (id : RunId) (token : Token) (now : Seconds) : Tx Unit := do
  let held ← Txn.read fun s => decide (s.holder id = some token)
  Tx.ensure (held = true) "run lease is missing or held by another supervisor"
  Txn.write fun s =>
    { s with leases := s.leases.modify id fun lease => { lease with heartbeatAt := now } }

/-- The live wrapper of the run is the process `pid`. -/
def assertWrapper (id : RunId) (pid : Pid) : Tx Unit := do
  let wrapper ← Txn.read fun s => s.processes.get? (id, .wrapper)
  Tx.ensure (wrapper.any fun p => p.pid = pid && p.exitedAt.isNone)
    "wrapper is not the live owner of this run"

def insertProcess (id : RunId) (role : ProcessRole) (pid : Pid) (now : Seconds) : Tx Unit := do
  let known ← Txn.read fun s => s.processes.get? (id, role)
  Txn.ensure (known.isNone = true) (.constraint "run_processes")
  Txn.write fun s =>
    { s with processes := s.processes.push (id, role) { pid := pid, heartbeatAt := now } }

def clearProcesses (id : RunId) : Tx Unit :=
  Txn.write fun s => { s with processes := s.processes.remove fun k _ => k.1 = id }

/-- Rewrite the processes of the run that have not exited. -/
def updateProcesses (id : RunId) (f : RunProcess → RunProcess) : Tx Unit :=
  Txn.write fun s => { s with
    processes := s.processes.update fun k p => if k.1 = id ∧ p.exitedAt.isNone then f p else p }

/-- A process of the run that has not exited and still heartbeats. -/
def Store.sessionIsLive (s : Store) (id : RunId) (now : Seconds) : Bool :=
  s.processes.any fun k p =>
    k.1 = id && p.exitedAt.isNone && decide (now - heartbeatTimeoutSecs ≤ p.heartbeatAt)

/-- Replace a lease without a working process behind it; a fresh one keeps the run from being taken.
The token of the replaced lease is returned. -/
def clearStaleLease (id : RunId) (alive : Pid → Bool) (now : Seconds) :
    Tx (Option Token) := do
  let lease ← readLease id
  Tx.takenIf (lease.all fun l => l.isStale alive now)
  let _ ← deleteLease id
  return lease.map Lease.token

/-! ## Supervisors -/

def registerSupervisor (token : Token) (pid : Pid) (now : Seconds) : Tx Unit := do
  let known ← Txn.read fun s => s.supervisors.get? token
  Tx.ensure (known.isNone = true) "supervisor token is already registered"
  Txn.write fun s =>
    { s with supervisors := s.supervisors.push token { pid := pid, heartbeatAt := now } }

def deregisterSupervisor (token : Token) : Tx Unit :=
  Txn.write fun s => { s with supervisors := s.supervisors.erase token }

/-- One heartbeat: the registration of `token` and every lease it holds. -/
def heartbeat (token : Token) (now : Seconds) : Tx Unit :=
  Txn.write fun s => { s with
    supervisors := s.supervisors.modify token fun r => { r with heartbeatAt := now }
    leases := s.leases.update fun _ lease =>
      if lease.token = token then { lease with heartbeatAt := now } else lease }

/-! ## From the claim to the end of the session -/

def planRun (id : RunId) (token : Token) (now : Seconds) (plan : RunPlan) : Tx Unit := do
  renewLease id token now
  let _ ← apply id (some token) "run cannot be provisioned twice" (·.startProvisioning plan)
  runNotice id (.runPlanned plan)

def workspaceCreated (id : RunId) (token : Token) (now : Seconds) (workspaceId : String) :
    Tx Unit := do
  renewLease id token now
  let _ ← apply id (some token) "workspace cannot be attached to this run"
    (·.attachWorkspace workspaceId)
  runNotice id (.workspaceCreated workspaceId)

/-- The run, if `token` is its supervisor, passes `check`. -/
def checkSupervised (id : RunId) (token : Token) (check : TaskRun → Except DomainError Unit)
    (refusal : String) : Tx Unit := do
  let row ← Txn.read fun s => s.runs.get? id
  Tx.ensure (row.any fun r => r.supervisorToken = some token && (check r.run).isOk) refusal

def registerWrapper (id : RunId) (token : Token) (pid : Pid) (now : Seconds) : Tx Unit := do
  renewLease id token now
  checkSupervised id token TaskRun.checkReadyForWrapper "run is not ready for its wrapper"
  insertProcess id .wrapper pid now
  runNotice id (.wrapperStarted pid)

/-- The agent registered under its live wrapper: `starting` to `running`.  No lease is asked for. -/
def registerAgent (id : RunId) (wrapperPid agentPid : Pid) (now : Seconds) : Tx Unit := do
  assertWrapper id wrapperPid
  insertProcess id .agent agentPid now
  let _ ← apply id none "run is not starting" TaskRun.markRunning
  runNotice id (.agentStarted agentPid)

def registerResumeWrapper (id : RunId) (token : Token) (pid : Pid) (now : Seconds) : Tx Unit := do
  renewLease id token now
  checkSupervised id token TaskRun.checkResumable "run is not being resumed by this supervisor"
  insertProcess id .wrapper pid now
  runNotice id (.wrapperStarted pid)

def registerResumeAgent (id : RunId) (wrapperPid agentPid : Pid) (now : Seconds) : Tx Unit := do
  assertWrapper id wrapperPid
  insertProcess id .agent agentPid now
  runNotice id (.agentStarted agentPid)

def heartbeatWrapper (id : RunId) (pid : Pid) (now : Seconds) : Tx Unit := do
  assertWrapper id pid
  updateProcesses id fun p => { p with heartbeatAt := now }

def wrapperExited (id : RunId) (pid : Pid) (exitCode : Int) (now : Seconds) : Tx Unit := do
  assertWrapper id pid
  updateProcesses id fun p =>
    { p with exitedAt := some now, exitCode := some exitCode, heartbeatAt := now }
  runNotice id (.sessionExited exitCode)

/-- The session ended: its exit code decides between validation and failure. -/
def finishSupervision (id : RunId) (token : Token) (now : Seconds) : Tx Unit := do
  renewLease id token now
  let wrapper ← Txn.read fun s => s.processes.get? (id, .wrapper)
  let code ← Txn.found (.refused "wrapper has not reported session exit")
    (wrapper.bind fun p => p.exitedAt.bind fun _ => p.exitCode)
  let run ← apply id (some token) "run is not owned by this supervisor" (·.finishSession (some code))
  runNotice id (.supervisionFinished run.status (some code))

/-- The session went idle after its receipt: validated with the session still alive. -/
def finishSupervisionLive (id : RunId) (token : Token) (now : Seconds) : Tx Unit := do
  renewLease id token now
  let run ← apply id (some token) "run is not owned by this supervisor" (·.finishSession none)
  runNotice id (.supervisionFinished run.status none)

/-! ## Ownership -/

def releaseLease (id : RunId) (token : Token) : Tx Unit := do
  let held ← dropLease id token
  Tx.ensure (held = true) "run lease was lost"
  runNotice id (.leaseReleased "finished")

/-- The statuses a run may be adopted in. -/
def RunStatus.adoptable : RunStatus → Bool
  | .running | .validating | .awaitingIntegration => true
  | _ => false

/-- Take over a run whose supervisor is gone: the lease row gets this process's token, and so does
the run.  Nothing is taken when the lease is fresh, released or already another's. -/
def adoptRun (id : RunId) (previousToken token : Token) (pid : Pid) (alive : Pid → Bool)
    (now : Seconds) : Tx Unit := do
  let lease ← readLease id
  let lease ← Txn.found .notTaken (lease.filter fun l => l.token = previousToken)
  let row ← Txn.found .notTaken (← Txn.read fun s => s.runs.get? id)
  Tx.takenIf (row.run.status.adoptable = true)
  Tx.takenIf (lease.isStale alive now = true)
  Txn.write fun s => { s with leases := s.leases.modify id fun _ =>
    { token := token, pid := pid, heartbeatAt := now } }
  setSupervisor id token
  runNotice id (.runAdopted previousToken token)

/-- Record a runtime error and disown the run without changing its status. -/
def abandonRun (id : RunId) (token : Token) (message : String) : Tx Unit := do
  let _ ← apply id none "run does not exist" (·.abandon message)
  let released ← dropLease id token
  runNotice id (.runtimeError released)

def recordRuntimeError (id : RunId) (message : String) : Tx Unit := do
  let _ ← apply id none "run does not exist" (·.abandon message)
  runNotice id (.runtimeError false)

/-- A step of a review or a landing, recorded outside any transition. -/
def recordRuntimeEvent (id : RunId) (event : RuntimeEvent) : Tx Unit :=
  runEvent id (.runtime event)

/-- Recovery of an orphaned run: a fresh lease refuses, and so does a registration since the caller
looked.  Only this run's lease goes; its task stays in progress. -/
def recoverRun (id : RunId) (checkedProcesses : Nat) (now : Seconds) : Tx TaskRun := do
  let lease ← readLease id
  Tx.ensure (lease.all fun l => l.heartbeatAt < now - heartbeatTimeoutSecs)
    "run lease heartbeat is fresh"
  let registered ← Txn.read fun s => (s.processes.select fun k _ => k.1 = id).length
  Tx.ensure (registered = checkedProcesses)
    "run processes changed during recovery; inspect doctor again"
  let row ← readRun id s!"run {id} does not exist"
  let run ← apply id none s!"run {id} cannot be recovered" TaskRun.interrupt
  let deleted ← deleteLease id
  runNotice id (.runRecovered row.run.status run.status deleted)
  return run

/-! ## Validation and review -/

/-- Validate an `awaitingIntegration` run again under the lease that reviews it. -/
def restartValidation (id : RunId) (token : Token) (now : Seconds) : Tx Unit := do
  renewLease id token now
  let _ ← apply id (some token) "run is not awaiting integration under this supervisor"
    TaskRun.restartValidation

/-- Outcome of the receipt's validation.  `resultCommit` is kept on rejection too when the commit was
verified. -/
structure Validation where
  accepted : Bool
  resultCommit : Option CommitSha
  reason : Option String := none
  evidenceMissing : List EvidenceCheck := []
  scopeViolation : List String := []

/-- A rejection that parks the run instead of failing it. -/
def Validation.resumable (validation : Validation) : Bool :=
  !validation.evidenceMissing.isEmpty || !validation.scopeViolation.isEmpty

/-- What the validation does to the run: accepting needs a commit. -/
def Validation.command (validation : Validation) (run : TaskRun) : Except DomainError TaskRun :=
  match validation.accepted, validation.resultCommit with
  | true, some commit => run.accept commit
  | true, none => .error (.blank "accepted result commit")
  | false, commit => run.reject commit validation.reason validation.resumable

def finishValidation (id : RunId) (token : Token) (now : Seconds) (validation : Validation) :
    Tx TaskRun := do
  renewLease id token now
  let run ← apply id (some token) "run is not validating under this supervisor" validation.command
  runEvent id (.milestone
    (.validationFinished validation.accepted validation.resultCommit run.status))
  Txn.when (run.status = .needsSession) <|
    runNotice id (if validation.scopeViolation.isEmpty then
      .evidenceMissing validation.evidenceMissing else .scopeViolation validation.scopeViolation)
  return run

/-- A person's answer about a waiting run that nobody leases: `needsSession` or `failed`. -/
def decideLanding (id : RunId) (status : RunStatus) (code : ReasonCode) (reason : String) :
    Tx Unit := do
  let lease ← readLease id
  Tx.ensure (lease.isNone = true) s!"run {id} is leased"
  let run ← apply id none s!"run {id} is not awaiting integration" (·.decideLanding status reason)
  runNotice id (.landingDecided code run.status)

/-- Park a waiting run that no longer lands on main: leased to `token`, whose lease goes, or to
nobody. -/
def parkRechecked (id : RunId) (token : Option Token) (code : ReasonCode) (reason : String) :
    Tx Unit := do
  let holder ← Txn.read fun s => s.holder id
  let row ← Txn.found .notTaken (← Txn.read fun s => s.runs.get? id)
  Tx.takenIf (holder = token ∧ row.run.status = .awaitingIntegration)
  let run ← apply id none s!"run {id} is not awaiting integration" (·.parkAfterRecheck reason)
  Txn.option token (pure ()) fun token => do
    let _ ← dropLease id token
    runNotice id (.leaseReleased "landing_recheck_failed")
  runNotice id (.landingRecheckFailed code run.status)

/-! ## The integration slot -/

/-- Take the single integration slot.  A lease `token` already holds is kept; one under another token
refuses. -/
def beginIntegration (id : RunId) (token : Token) (pid : Pid) (now : Seconds) (main : CommitSha) :
    Tx TaskRun := do
  let busy ← Txn.read fun s => s.runs.any fun _ row => row.run.status = .integrating
  Tx.ensure (busy = false) "a run is integrating; one run lands at a time"
  let row ← readRun id s!"run {id} does not exist"
  let run ← apply id none s!"run {id} cannot be integrated" TaskRun.beginIntegration
  let lease ← readLease id
  Tx.ensure (lease.all fun l => l.token = token) "run is still leased"
  let renewed : Lease := { token := token, pid := pid, heartbeatAt := now }
  Txn.write fun s => { s with leases := (s.leases.modify id fun _ => renewed).push id renewed }
  runEvent id (.milestone (.integrationStarted main row.run.status))
  return run

/-- Leave the slot by `command`: the lease goes with it. -/
def leaveIntegration (id : RunId) (token : Token) (now : Seconds)
    (command : TaskRun → Except DomainError TaskRun) (reason : String)
    (notice : RunStatus → Notice) : Tx TaskRun := do
  renewLease id token now
  let run ← apply id none s!"run {id} is not integrating" command
  let _ ← dropLease id token
  runNotice id (notice run.status)
  runNotice id (.leaseReleased reason)
  return run

def deferIntegration (id : RunId) (token : Token) (now : Seconds) (code : ReasonCode)
    (reason : String) : Tx TaskRun :=
  leaveIntegration id token now (·.deferIntegration reason) "integration_deferred"
    (.integrationDeferred code)

def failIntegration (id : RunId) (token : Token) (now : Seconds) (reason : String) : Tx TaskRun :=
  leaveIntegration id token now (·.failIntegration reason) "integration_failed" .integrationFailed

def abortIntegration (id : RunId) (token : Token) (now : Seconds) (revertTo : RunStatus)
    (code : ReasonCode) (message : String) : Tx TaskRun :=
  leaveIntegration id token now (·.abortIntegration revertTo message) "integration_error"
    (.integrationError code)

/-- Complete the task once its run landed as `commit` on top of `mainBefore`. -/
def finishIntegration (id : RunId) (token : Token) (now : Seconds) (commit mainBefore : CommitSha) :
    Tx Unit := do
  renewLease id token now
  let run ← apply id none s!"run {id} is not integrating" (·.finishIntegration commit)
  let _ ← dropLease id token
  let row ← readTask run.taskId
  Tx.ensure (row.task.status = .inProgress) s!"task {run.taskId} is not in progress"
  saveTask run.taskId { row.task with status := .completed }
  runNotice id (.runIntegrated commit mainBefore)
  runNotice id (.leaseReleased "integrated")
  noticeOn (some run.taskId) (some id) (.taskStatusChanged .inProgress .completed none)

def recordCleanupFailure (id : RunId) (message : String) : Tx Unit := do
  let _ ← apply id none "run does not exist" (·.recordCleanupFailure message)
  runNotice id .cleanupFailed

/-! ## Resumes -/

/-- Lease a `needsSession` run to `token`: no lease but a stale one, no session still heartbeating.
With `clear` the previous session's process rows go. -/
def leaseParkedRun (id : RunId) (token : Token) (pid : Pid) (alive : Pid → Bool) (now : Seconds)
    (clear : Bool) : Tx (Option Token) := do
  let row ← Txn.found .notTaken (← Txn.read fun s => s.runs.get? id)
  Tx.takenIf (row.run.status = .needsSession)
  let previous ← clearStaleLease id alive now
  let live ← Txn.read fun s => s.sessionIsLive id now
  Tx.takenIf (live = false)
  Txn.when (clear = true) (clearProcesses id)
  insertLease id { token := token, pid := pid, heartbeatAt := now }
  setSupervisor id token
  return previous

/-- Take a `needsSession` run with resumes left for a resumed session. -/
def beginResume (id : RunId) (token : Token) (pid : Pid) (alive : Pid → Bool) (now : Seconds)
    (main : CommitSha) : Tx Unit := do
  let row ← Txn.found .notTaken (← Txn.read fun s => s.runs.get? id)
  Tx.takenIf ((TaskRun.checkResumable row.run).isOk = true)
  let events ← Txn.read fun s => s.runEventsOf id
  Tx.takenIf ((ResumeCount.of events).exhausted = false)
  let previous ← leaseParkedRun id token pid alive now true
  runNotice id (.leaseAcquired "resume" previous)
  runNotice id (.resumeStarted ((ResumeCount.of events).total + 1)
    (!(History.of events).conflictOnly) main)
  Txn.when ((History.of events).conflictOnly = true)
    (runNotice id (.autoRepaired "conflict_resume_uncounted"))

/-- Move a `needsSession` run on without a session because an earlier attempt already resolved it. -/
def skipResume (id : RunId) (token : Token) (pid : Pid) (alive : Pid → Bool) (now : Seconds)
    (head main : CommitSha) (approved : Bool) : Tx Unit := do
  let previous ← leaseParkedRun id token pid alive now false
  let run ← apply id none s!"run {id} is not needs_session" (·.skipResume approved)
  runNotice id (.leaseAcquired "resume_skipped" previous)
  runNotice id (.resumeSkipped head main approved run.status)

/-- End a resume: `status`, when given, is where the run goes from `needsSession`.  The lease goes
unless the caller lands the run under it. -/
def finishResume (id : RunId) (token : Token) (now : Seconds) (status : Option RunStatus)
    (reason : Option String) (keepLease : Bool) : Tx Unit := do
  renewLease id token now
  Txn.option status (pure ()) fun status => do
    let _ ← apply id none s!"run {id} is not needs_session" (·.finishResume status reason)
  runNotice id (.resumeFinished (status.getD .needsSession))
  Txn.when (keepLease = false) do
    let _ ← dropLease id token
    runNotice id (.leaseReleased "resume_finished")

/-! ## Workspaces -/

def notAtRest : String :=
  "run is not awaiting integration or a session with an open workspace under this supervisor"

def workspaceClosed (id : RunId) (token : Token) (now : Seconds) : Tx Unit := do
  renewLease id token now
  let run ← apply id (some token) notAtRest (·.workspaceClosed now)
  runNotice id (.workspaceClosed run.workspaceId)

def cleanupFailed (id : RunId) (token : Token) (now : Seconds) (message : String) : Tx Unit := do
  renewLease id token now
  let _ ← apply id (some token) notAtRest (·.recordCloseFailure message)
  runNotice id .cleanupFailed

/-- The triage or the supervisor's sweep closed a workspace of the run. -/
def recordWorkspaceClosed (id : RunId) (workspaceId : String) (now : Seconds) : Tx Unit := do
  let _ ← apply id none s!"run {id} does not exist" (·.recordClosedWorkspace workspaceId now)
  runNotice id (.workspaceClosed (some workspaceId))

/-! ## Recovery rounds -/

/-- Whether the run is the latest one of a task in progress. -/
def Store.isLatestInProgress (s : Store) (id : RunId) (run : TaskRun) : Bool :=
  s.taskStatus run.taskId = some .inProgress && s.latestRun run.taskId = some id

/-- Take a `failed` or `interrupted` run for a recovery round. -/
def beginTriage (id : RunId) (token : Token) (pid : Pid) (alive : Pid → Bool) (now : Seconds)
    (request : Bool) : Tx Unit := do
  let row ← Txn.found .notTaken (← Txn.read fun s => s.runs.get? id)
  let current ← Txn.read fun s => s.isLatestInProgress id row.run
  Tx.takenIf ((row.run.status = .failed ∨ row.run.status = .interrupted) ∧ current = true)
  let events ← Txn.read fun s => s.runEventsOf id
  Tx.takenIf ((triageState events).takes now = true)
  let previous ← clearStaleLease id alive now
  insertLease id { token := token, pid := pid, heartbeatAt := now }
  runNotice id (.leaseAcquired "triage" previous)
  Txn.when (request = true) (runNotice id .recoveryRequested)
  let attempts := events.countP fun | .notice (.triageStarted ..) => true | _ => false
  runNotice id (.triageStarted (attempts + 1) row.run.status)

/-- The run goes back to its session on the word of a recovery round or a person.  Neither the status
of the task nor whether the run is its latest is looked at here. -/
def resumeTriaged (id : RunId) (instruction : String) : Tx Unit := do
  let _ ← apply id none s!"run {id} changed" (·.resumeAfterTriage instruction)

/-- Act on a recovery round under its lease: `retry` and `retryInherit` ready the task, `resume` sends
the run to a session, `wait` and `ask` change nothing.  The lease stays. -/
def finishTriage (id : RunId) (token : Token) (now : Seconds) (action : TriageAction)
    (also : List RuntimeEvent) : Tx Unit := do
  renewLease id token now
  let row ← readRun id s!"run {id} does not exist"
  Tx.ensure ((TaskRun.checkTriageable row.run).isOk = true)
    s!"run {id} is not failed or interrupted; only such runs are triaged"
  let taskEvents ← Txn.read fun s => s.taskEventsOf row.run.taskId
  Txn.when (action.inherits = true) <|
    Tx.ensure (taskEvents.any EventBody.isInheritRetry = false)
      s!"task {row.run.taskId} was retried with a branch carried over already"
  Txn.when (action.retries = true) do
    let _ ← transitionTask row.run.taskId .ready
  Txn.option action.instruction? (pure ()) (resumeTriaged id)
  let result ← readRun id s!"run {id} does not exist"
  runNotice id (.triageFinished action result.run.status)
  also.forM fun event => recordRuntimeEvent id event

/-- What becomes of a run whose resumes are used up. -/
inductive Exhaustion
  | recover
  | inherit (branch : Option String) (head : CommitSha)

def Exhaustion.inherited? : Exhaustion → Option (Option String × CommitSha)
  | .recover => none
  | .inherit branch head => some (branch, head)

/-- End a `needsSession` run whose resumes are used up: it fails, and `inherit` readies the task for
a run that carries the branch over. -/
def exhaustResumes (id : RunId) (exhaustion : Exhaustion) (reason : String) (alive : Pid → Bool)
    (now : Seconds) : Tx Unit := do
  let row ← Txn.found .notTaken (← Txn.read fun s => s.runs.get? id)
  let current ← Txn.read fun s => s.isLatestInProgress id row.run
  Tx.takenIf (row.run.status = .needsSession ∧ current = true)
  let events ← Txn.read fun s => s.runEventsOf id
  Tx.takenIf ((ResumeCount.of events).exhausted = true)
  let taskEvents ← Txn.read fun s => s.taskEventsOf row.run.taskId
  Tx.takenIf (exhaustion.inherited?.isSome = true → inheritsOnExhaustion events taskEvents = true)
  let _ ← clearStaleLease id alive now
  let run ← apply id none s!"run {id} changed" (·.exhaustResumes reason)
  Txn.option exhaustion.inherited?
    (runNotice id .recoveryRequested)
    fun inherited => do
      let _ ← transitionTask row.run.taskId .ready
      runNotice id (.autoRepaired "inherit_retry")
      runNotice id (.triageFinished (.retryInherit inherited.1 inherited.2) run.status)

/-- What the answer of a triage's `decide` ask does: `retry` and `cancel` move the task, `resume` the
run (whatever the status of the task), and any other option the ask offered moves nothing. -/
def triageAnswered (id : RunId) (taskId : TaskId) (ask : Option Ask) (answer reason : String) :
    Tx Unit :=
  if answer = "retry" then do
    let _ ← transitionTask taskId .ready
  else if answer = "resume" then
    resumeTriaged id reason
  else if answer = "cancel" then do
    let _ ← transitionTask taskId .cancel
  else
    Tx.ensure (ask.any fun a => answer ∈ a.options)
      s!"{answer} is not an answer the recovery applies"

/-- Apply the answer of a triage's `decide` ask to its run, the latest of its task and leased to
nobody that works, and close the ask. -/
def decideTriage (id : RunId) (askId : AskId) (answer reason : String) (alive : Pid → Bool)
    (now : Seconds) : Tx Unit := do
  let lease ← readLease id
  Tx.ensure (lease.all fun l => l.isStale alive now) s!"run {id} is leased"
  let _ ← deleteLease id
  let row ← readRun id s!"run {id} does not exist"
  Tx.ensure ((TaskRun.checkTriageable row.run).isOk = true)
    s!"run {id} is not failed or interrupted"
  let latest ← Txn.read fun s => s.latestRun row.run.taskId
  Tx.ensure (latest = some id) s!"run {id} is no longer the latest run of task {row.run.taskId}"
  let ask ← Txn.read fun s => s.asks.get? askId
  Tx.ensure (ask.any fun a => a.runId = some id && a.answeredAt.isSome && a.closedAt.isNone)
    s!"ask {askId} is not an answered, unclosed ask of run {id}"
  triageAnswered id row.run.taskId ask answer reason
  Txn.write fun s =>
    { s with asks := s.asks.modify askId fun a => { a with closedAt := some now } }
  let result ← readRun id s!"run {id} does not exist"
  runNotice id (.triageDecided askId answer
    (answer ≠ "retry" && answer ≠ "resume" && answer ≠ "cancel") result.run.status)

/-! Instance search sees through these operations to the steps they are made of. -/

attribute [reducible] setSupervisor readLease assertWrapper insertProcess clearProcesses
  updateProcesses clearStaleLease registerSupervisor deregisterSupervisor heartbeat planRun
  workspaceCreated checkSupervised registerWrapper registerAgent registerResumeWrapper
  registerResumeAgent heartbeatWrapper wrapperExited finishSupervision finishSupervisionLive
  releaseLease adoptRun abandonRun recordRuntimeError recordRuntimeEvent restartValidation
  decideLanding parkRechecked leaveIntegration deferIntegration failIntegration
  recordCleanupFailure leaseParkedRun beginResume skipResume finishResume workspaceClosed
  cleanupFailed recordWorkspaceClosed beginTriage exhaustResumes

end Dagq
