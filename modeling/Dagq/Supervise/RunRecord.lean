/-
# Dagq.Supervise.RunRecord -- what is on record of one run, and the writes to it.

A supervisor that watches a run acts on the run's row, its lease, the wrapper of its session and its
events.  This file keeps that part of the queue for a single run, with the payloads that a watch reads
back: the workspace a resume left open, who opened an ask, what a conflict precheck decided.  Every
write is one transaction of the queue seen from this run; `none` says that the queue refuses it.
Events that no watch reads are left out.
-/
import Dagq.Store.Runs

namespace Dagq

/-! ## What is on record -/

/-- The workspace of a session: the worker's own, or the one a resume opened. -/
structure SessionRef where
  workspace : String
  resume : Option Nat := none
  deriving DecidableEq

/-- An event of the run with the rest of its payload that a watch reads: the session a
`resume_finished` keeps open, who opened an ask, and whether a `conflict_precheck` asks a person or
withdraws a request that could not be sent. -/
structure RunEvent where
  body : EventBody
  session : Option SessionRef := none
  bySupervisor : Bool := false
  asked : Bool := false
  unsent : Bool := false

/-- An event of which a watch reads no more than its body. -/
abbrev RunEvent.bare (body : EventBody) : RunEvent := { body := body }

/-- The registered wrapper of the run's session.  `gone`: its process died without recording the exit,
and its heartbeat expired. -/
structure Wrapper where
  agent : Bool := false
  exitCode : Option Int := none
  gone : Bool := false

/-- One run on record, its events newest first. -/
structure RunRecord where
  run : TaskRun
  lease : Option Token := none
  wrapper : Option Wrapper := none
  log : List RunEvent := []
  closedAsks : List AskId := []
  /-- How often the exit text was submitted to the session that runs now. -/
  typed : Nat := 0

namespace EventBody

/-- The kinds that tell where the run's session lives since it was parked. -/
def isResumeKind : EventBody → Bool
  | .notice (.resumeStarted ..) | .notice (.resumeFinished _) | .notice (.resumeSkipped ..) => true
  | _ => false

def isExitRequest : EventBody → Bool
  | .runtime .exitRequested => true
  | _ => false

def isApproval : EventBody → Bool
  | .runtime .integrationApproved => true
  | _ => false

def isReviewFailure : EventBody → Bool
  | .runtime .reviewFailed => true
  | _ => false

/-- The verdict of a finished review. -/
def verdict? : EventBody → Option ReviewDecision
  | .runtime (.reviewFinished verdict) => some verdict
  | _ => none

/-- The ask an `ask_opened` of an `approve_landing` names. -/
def landingAsk? : EventBody → Option AskId
  | .notice (.askOpened askId .approveLanding) => some askId
  | _ => none

def closesWorkspace (workspace : String) : EventBody → Bool
  | .notice (.workspaceClosed (some closed)) => closed = workspace
  | _ => false

end EventBody

namespace RunRecord

variable (r : RunRecord)

/-! ## Reading the events back -/

def hasEvent (kind : EventBody → Bool) : Bool := r.log.any fun e => kind e.body

/-- The bodies, oldest first, as the readers of the queue take them. -/
def bodies : List EventBody := (r.log.map RunEvent.body).reverse

/-- The events since the last one that moved the review along. -/
def sinceAnchor : List RunEvent := r.log.takeWhile fun e => !e.body.movesReview

/-- The last event that moved the review along, and the events before it. -/
def fromAnchor : List RunEvent := r.log.dropWhile fun e => !e.body.movesReview

def after (kind : EventBody → Bool) : Bool := r.sinceAnchor.any fun e => kind e.body

/-- The verdict of the last finished review before the anchor. -/
def passedBefore : Option ReviewDecision := r.fromAnchor.tail.findSome? fun e => e.body.verdict?

/-- The last `approve_landing` ask the supervisor opened since the anchor, if nobody closed it. -/
def unclosedLandingAskAfter : Option AskId :=
  (r.sinceAnchor.findSome? fun e => if e.bySupervisor = true then e.body.landingAsk? else none).filter
    (· ∉ r.closedAsks)

def hasUnclosedLandingAsk : Bool :=
  r.log.any fun e => e.body.landingAsk?.any (· ∉ r.closedAsks)

/-- The latest event that parked the run for a session is the landing recheck's. -/
def parkedByRecheck : Bool := (History.of r.bodies).rechecked

/-- The latest event of the run's resumes, and the workspaces closed since. -/
def lastResume : Option RunEvent := r.log.find? fun e => e.body.isResumeKind

def closedSinceResume (workspace : String) : Bool :=
  (r.log.takeWhile fun e => !e.body.isResumeKind).any fun e => e.body.closesWorkspace workspace

/-- The session an accepted run keeps open: that of the resume which handed its live session to
validation, unless its workspace was closed since; without a resume the worker's own workspace while
it is not closed. -/
def sessionOf : Option SessionRef :=
  match r.lastResume with
  | some { body := .notice (.resumeFinished .validating), session := some session, .. } =>
      if r.closedSinceResume session.workspace = true then none else some session
  | some _ => none
  | none =>
      if r.run.workspaceClosedAt.isNone then
        r.run.workspaceId.map fun workspace => { workspace := workspace }
      else none

/-- The last resume event moved the run on without a session. -/
def skippedResume : Bool :=
  r.lastResume.any fun e => match e.body with
    | .notice (.resumeSkipped ..) => true
    | _ => false

/-- The revise requests sent: those recorded, less those withdrawn because they could not be typed. -/
def sentRevises : Nat :=
  (r.log.countP fun e => match e.body with | .runtime .reviseRequested => true | _ => false) -
    r.log.countP fun e => match e.body with | .runtime .reviseUnsent => true | _ => false

/-- The conflict requests sent, likewise. -/
def sentConflictRequests : Nat :=
  (r.log.countP fun e => match e.body with
    | .runtime (.conflictPrecheck _ requested) => requested
    | _ => false) -
    r.log.countP fun e => match e.body with
      | .runtime (.conflictPrecheck ..) => e.unsent
      | _ => false

/-- The session of the run is alive: its wrapper is registered, has not exited and has not died. -/
def sessionAlive : Bool := r.wrapper.any fun w => w.exitCode.isNone && !w.gone

/-- The wrapper recorded its exit. -/
def sessionEnded : Bool := r.wrapper.any fun w => w.exitCode.isSome

/-! ## Writes -/

/-- The lease is `token`'s. -/
def under (token : Token) : Option RunRecord := if r.lease = some token then some r else none

def apply (command : TaskRun → Except DomainError TaskRun) : Option RunRecord :=
  match command r.run with
  | .ok run => some { r with run := run }
  | .error _ => none

def record (e : RunEvent) : RunRecord := { r with log := e :: r.log }

def notice (body : Notice) : RunRecord := r.record (.bare (.notice body))

def milestone (m : Milestone) : RunRecord := r.record (.bare (.milestone m))

def runtime (event : RuntimeEvent) : RunRecord := r.record (.bare (.runtime event))

/-- The lease is `token`'s now: nobody held it, or a supervisor that is gone. -/
def leaseTo (token : Token) : RunRecord := { r with lease := some token }

def unleased : RunRecord := { r with lease := none }

def dropLease (token : Token) : RunRecord := if r.lease = some token then r.unleased else r

/-! ### The session -/

/-- The wrapper of the worker's session, or of a resumed one, registers under the lease it was started
with. -/
def registerWrapper (token : Token) : Option RunRecord := do
  let r ← r.under token
  guard (r.wrapper.isNone ∧
    ((TaskRun.checkReadyForWrapper r.run).isOk ∨ (TaskRun.checkResumable r.run).isOk))
  return { r with wrapper := some {} }

/-- The agent starts under its live wrapper. -/
def startAgent (pid : Pid) : Option RunRecord := do
  let wrapper ← r.wrapper
  guard (r.sessionAlive ∧ wrapper.agent = false)
  let r := { r with wrapper := some { wrapper with agent := true }, typed := 0 }
  return r.notice (.agentStarted pid)

/-- The worker's agent: `starting` to `running`. -/
def registerAgent (pid : Pid) : Option RunRecord := do
  let r ← r.startAgent pid
  r.apply TaskRun.markRunning

/-- The agent of a resumed session: the run stays `needsSession`. -/
def registerResumeAgent (pid : Pid) : Option RunRecord := r.startAgent pid

def wrapperExited (code : Int) : Option RunRecord := do
  let wrapper ← r.wrapper
  guard (r.sessionAlive = true)
  let r := { r with wrapper := some { wrapper with exitCode := some code } }
  return r.notice (.sessionExited code)

/-- The wrapper's process dies without recording its exit. -/
def wrapperDies : RunRecord :=
  { r with wrapper := r.wrapper.map fun w => { w with gone := w.gone || w.exitCode.isNone } }

/-- The session ended: its exit code decides between validation and failure. -/
def finishSupervision (token : Token) : Option RunRecord := do
  let r ← r.under token
  let wrapper ← r.wrapper
  let code ← wrapper.exitCode
  r.apply (·.finishSession (some code))

/-- The session went idle after its receipt: validated with the session still alive. -/
def finishSupervisionLive (token : Token) : Option RunRecord := do
  let r ← r.under token
  r.apply (·.finishSession none)

/-! ### Validation and review -/

def finishValidation (token : Token) (validation : Validation) : Option RunRecord := do
  let r ← r.under token
  let r ← r.apply validation.command
  let r := r.milestone
    (.validationFinished validation.accepted validation.resultCommit r.run.status)
  return if r.run.status = .needsSession then
      r.notice (if validation.scopeViolation.isEmpty then
        .evidenceMissing validation.evidenceMissing else .scopeViolation validation.scopeViolation)
    else r

def restartValidation (token : Token) : Option RunRecord := do
  let r ← r.under token
  r.apply TaskRun.restartValidation

/-- Close the workspace of a session: the worker's own on the run's row, once, a resume's as an
event. -/
def closeWorkspace (token : Token) (session : SessionRef) (now : Seconds) : Option RunRecord :=
  match session.resume with
  | some _ => some (r.notice (.workspaceClosed (some session.workspace)))
  | none =>
      if r.run.workspaceClosedAt.isSome || r.run.workspaceId.isNone then some r
      else do
        let r ← r.under token
        let r ← r.apply (·.workspaceClosed now)
        return r.notice (.workspaceClosed r.run.workspaceId)

/-- Open the `approve_landing` ask of the run, which closes the earlier ones. -/
def openLandingAsk (askId : AskId) : Option RunRecord := do
  guard (r.log.all fun e : RunEvent => e.body.landingAsk? ≠ some askId)
  let r := { r with closedAsks := r.log.filterMap (fun e : RunEvent => e.body.landingAsk?) ++ r.closedAsks }
  return r.record { body := .notice (.askOpened askId .approveLanding), bySupervisor := true }

/-! ### Leases -/

def releaseLease (token : Token) : Option RunRecord := do
  let r ← r.under token
  return r.dropLease token

/-- Take over a run from `previous`, a supervisor that is gone. -/
def adopt (previous token : Token) : Option RunRecord := do
  let r ← r.under previous
  guard (r.run.status.adoptable = true)
  return r.leaseTo token

/-- Recovery of an orphaned run: the lease goes, whoever held it. -/
def recover : Option RunRecord := do
  let r ← r.apply TaskRun.interrupt
  return r.unleased

/-! ### Resumes -/

/-- Take a parked run with resumes left for a resumed session.  The lease of a supervisor that is gone
is replaced; a session that still runs keeps the run from being taken. -/
def beginResume (token : Token) (main : CommitSha) : Option RunRecord := do
  guard ((TaskRun.checkResumable r.run).isOk ∧ r.sessionAlive = false ∧
    (ResumeCount.of r.bodies).exhausted = false)
  return ({ r with lease := some token, wrapper := none } : RunRecord).notice
    (.resumeStarted ((ResumeCount.of r.bodies).total + 1) (!(History.of r.bodies).conflictOnly) main)

/-- Move a parked run on without a session because an earlier attempt already resolved it. -/
def skipResume (token : Token) (head main : CommitSha) : Option RunRecord := do
  guard ((TaskRun.checkResumable r.run).isOk ∧ r.sessionAlive = false)
  let approved := r.hasEvent EventBody.isApproval
  let r ← r.apply (·.skipResume approved)
  return (r.leaseTo token).notice (.resumeSkipped head main approved r.run.status)

/-- The status a resume leaves the run in, when it moves it. -/
def moveResumed (status : Option RunStatus) : Option RunRecord :=
  match status with
  | none => some r
  | some status => r.apply (·.finishResume status none)

/-- End a resume: `status`, when given, is where the run goes from `needsSession`; `session` is the one
the resume leaves open.  The lease goes unless the run lands or is validated under it. -/
def finishResume (token : Token) (status : Option RunStatus) (session : SessionRef)
    (keepLease : Bool) : Option RunRecord := do
  let r ← r.under token
  let r ← r.moveResumed status
  let r := r.record
    { body := .notice (.resumeFinished (status.getD .needsSession)), session := some session }
  return if keepLease = true then r else r.dropLease token

/-! ### Landings -/

/-- Take the integration slot.  A lease `token` already holds is kept; one under another token
refuses. -/
def beginIntegration (token : Token) (main : CommitSha) : Option RunRecord := do
  guard (r.lease.all (· = token))
  let previous := r.run.status
  let r ← r.apply TaskRun.beginIntegration
  return (r.leaseTo token).milestone (.integrationStarted main previous)

/-- How a landing ends. -/
inductive LandingEnd
  | integrated (commit mainBefore : CommitSha)
  | deferred (code : ReasonCode)
  | failed
  | aborted (revertTo : RunStatus) (code : ReasonCode)

/-- What the end of a landing does to the run. -/
def LandingEnd.command (run : TaskRun) : LandingEnd → Except DomainError TaskRun
  | .integrated commit _ => run.finishIntegration commit
  | .deferred _ => run.deferIntegration ""
  | .failed => run.failIntegration ""
  | .aborted revertTo _ => run.abortIntegration revertTo ""

def LandingEnd.notice (status : RunStatus) : LandingEnd → Notice
  | .integrated commit mainBefore => .runIntegrated commit mainBefore
  | .deferred code => .integrationDeferred code status
  | .failed => .integrationFailed status
  | .aborted _ code => .integrationError code status

/-- Leave the integration slot under the lease, which goes with it. -/
def leaveIntegration (token : Token) (landed : LandingEnd) : Option RunRecord := do
  let r ← r.under token
  let r ← r.apply fun run => landed.command run
  return (r.dropLease token).notice (landed.notice r.run.status)

/-- A person's answer about a waiting run that nobody leases. -/
def decideLanding (status : RunStatus) (code : ReasonCode) : Option RunRecord := do
  guard (r.lease.isNone = true)
  let r ← r.apply (·.decideLanding status "")
  return r.notice (.landingDecided code r.run.status)

/-- Park a waiting run that no longer lands on main: leased to `token`, whose lease goes, or to
nobody. -/
def parkRechecked (token : Option Token) (code : ReasonCode) : Option RunRecord := do
  guard (r.lease = token)
  let r ← r.apply (·.parkAfterRecheck "")
  return r.unleased.notice (.landingRecheckFailed code r.run.status)

/-! ### Recovery rounds -/

def beginTriage (token : Token) : Option RunRecord := do
  guard ((TaskRun.checkTriageable r.run).isOk = true)
  return r.leaseTo token

/-- A `resume` sends the run to a session. -/
def moveTriaged (action : TriageAction) : Option RunRecord :=
  match action.instruction? with
  | none => some r
  | some instruction => r.apply (·.resumeAfterTriage instruction)

/-- Act on a recovery round under its lease. -/
def finishTriage (token : Token) (action : TriageAction) : Option RunRecord := do
  let r ← r.under token
  guard ((TaskRun.checkTriageable r.run).isOk = true)
  let r ← r.moveTriaged action
  return r.notice (.triageFinished action r.run.status)

/-- A person's answer to a recovery round, about a run leased to nobody that works. -/
def decideTriage (askId : AskId) (answer : String) : Option RunRecord := do
  guard ((TaskRun.checkTriageable r.run).isOk = true)
  let r ← if answer = "resume" then r.apply (·.resumeAfterTriage answer) else some r
  return r.unleased.notice (.triageDecided askId answer
    (answer ≠ "retry" && answer ≠ "resume" && answer ≠ "cancel") r.run.status)

/-- End a parked run whose resumes are used up. -/
def exhaustResumes : Option RunRecord := do
  guard ((ResumeCount.of r.bodies).exhausted = true)
  let r ← r.apply (·.exhaustResumes "")
  return r.unleased

/-- The triage or the sweep closed a workspace of the run. -/
def sweepWorkspace (workspace : String) (now : Seconds) : Option RunRecord := do
  let r ← r.apply (·.recordClosedWorkspace workspace now)
  return r.notice (.workspaceClosed (some workspace))

/-! ## What the writes do -/

/-- A write that appends `es`, newest first, and leaves the run in `status`: the lease stays or goes,
neither the wrapper nor the worker's workspace comes back, and no exit is typed unless its request is
recorded. -/
structure Writes (r r' : RunRecord) (es : List RunEvent) (status : RunStatus) : Prop where
  log_eq : r'.log = es ++ r.log
  wrapper_eq : r'.wrapper = r.wrapper
  lease_eq : r'.lease = r.lease ∨ r'.lease = none
  status_eq : r'.run.status = status
  workspace_eq : r'.run.workspaceId = r.run.workspaceId
  closed_of_closed : r.run.workspaceClosedAt.isSome → r'.run.workspaceClosedAt.isSome
  typed_le : r'.typed ≤ r.typed + es.countP fun e => e.body.isExitRequest

variable {r} {r' : RunRecord} {token : Token}

theorem under_some : r.under token = some r' ↔ r.lease = some token ∧ r = r' := by
  unfold under
  split <;> simp_all

theorem apply_some {command : TaskRun → Except DomainError TaskRun} :
    r.apply command = some r' ↔ ∃ run, command r.run = .ok run ∧ r' = { r with run := run } := by
  unfold apply
  split <;> simp_all [eq_comm]

theorem dropLease_writes : Writes r (r.dropLease token) [] r.run.status := by
  unfold dropLease
  split
  · exact ⟨rfl, rfl, .inr rfl, rfl, rfl, id, Nat.le_add_right _ _⟩
  · exact ⟨rfl, rfl, .inl rfl, rfl, rfl, id, Nat.le_add_right _ _⟩

theorem record_writes {e : RunEvent} : Writes r (r.record e) [e] r.run.status :=
  ⟨rfl, rfl, .inl rfl, rfl, rfl, id, Nat.le_add_right _ _⟩

theorem finishSupervision_ok (h : r.finishSupervision token = some r') :
    r.sessionEnded = true ∧ (Writes r r' [] .validating ∨ Writes r r' [] .failed) := by
  simp only [finishSupervision, Option.bind_eq_bind, Option.bind_eq_some_iff, under_some,
    apply_some] at h
  obtain ⟨_, ⟨_, rfl⟩, wrapper, hw, code, hcode, run, hrun, rfl⟩ := h
  refine ⟨by simp [sessionEnded, hw, hcode], ?_⟩
  simp only [TaskRun.finishSession, except_bind_ok, except_pure_ok] at hrun
  obtain ⟨_, _, rfl⟩ := hrun
  by_cases hc : code = 0
  · exact .inl ⟨rfl, rfl, .inl rfl, by simp [hc], by simp [hc], by simp [hc],
      Nat.le_add_right _ _⟩
  · exact .inr ⟨rfl, rfl, .inl rfl, by simp [hc], by simp [hc], by simp [hc],
      Nat.le_add_right _ _⟩

theorem finishSupervisionLive_ok (h : r.finishSupervisionLive token = some r') :
    Writes r r' [] .validating := by
  simp only [finishSupervisionLive, Option.bind_eq_bind, Option.bind_eq_some_iff, under_some,
    apply_some] at h
  obtain ⟨_, ⟨_, rfl⟩, run, hrun, rfl⟩ := h
  simp only [TaskRun.finishSession, except_bind_ok, except_pure_ok] at hrun
  obtain ⟨_, _, rfl⟩ := hrun
  exact ⟨rfl, rfl, .inl rfl, rfl, rfl, id, Nat.le_add_right _ _⟩

theorem finishValidation_ok {validation : Validation}
    (h : r.finishValidation token validation = some r') :
    r.run.status = .validating ∧ ∃ es status, Writes r r' (es ++ [.bare (.milestone
        (.validationFinished validation.accepted validation.resultCommit status))]) status ∧
      (es = [] ∨ (∃ checks, es = [.bare (.notice (.evidenceMissing checks))]) ∨
        ∃ paths, es = [.bare (.notice (.scopeViolation paths))]) ∧ status ≠ .validating := by
  simp only [finishValidation, Option.bind_eq_bind, Option.bind_eq_some_iff, under_some,
    apply_some, Option.pure_def, Option.some.injEq] at h
  obtain ⟨_, ⟨_, rfl⟩, _, ⟨run, hrun, rfl⟩, rfl⟩ := h
  -- Accepted or rejected, the run leaves validating and keeps its workspace.
  have hkept : r.run.status = .validating ∧ run.workspaceId = r.run.workspaceId ∧
      run.workspaceClosedAt = r.run.workspaceClosedAt ∧ run.status ≠ .validating := by
    unfold Validation.command at hrun
    split at hrun
    · simp only [TaskRun.accept, except_bind_ok, except_pure_ok] at hrun
      obtain ⟨_, hfrom, rfl⟩ := hrun
      exact ⟨by simpa using TaskRun.requireStatus_ok.mp hfrom, rfl, rfl, by simp⟩
    · cases hrun
    · simp only [TaskRun.reject, except_bind_ok, except_pure_ok] at hrun
      obtain ⟨_, hfrom, rfl⟩ := hrun
      exact ⟨by simpa using TaskRun.requireStatus_ok.mp hfrom, rfl, rfl,
        by simp only; split <;> simp⟩
  obtain ⟨hfrom, hid, hclosed, hstatus⟩ := hkept
  refine ⟨hfrom, ?_⟩
  split
  · refine ⟨[_], run.status, ⟨rfl, rfl, .inl rfl, rfl, hid, by simp [hclosed, notice, record,
      milestone], Nat.le_add_right _ _⟩, .inr ?_, hstatus⟩
    split
    · exact .inl ⟨_, rfl⟩
    · exact .inr ⟨_, rfl⟩
  · exact ⟨[], run.status, ⟨rfl, rfl, .inl rfl, rfl, hid, by simp [hclosed, record, milestone],
      Nat.le_add_right _ _⟩, .inl rfl, hstatus⟩

theorem restartValidation_ok (h : r.restartValidation token = some r') :
    Writes r r' [] .validating := by
  simp only [restartValidation, Option.bind_eq_bind, Option.bind_eq_some_iff, under_some,
    apply_some] at h
  obtain ⟨_, ⟨_, rfl⟩, run, hrun, rfl⟩ := h
  simp only [TaskRun.restartValidation, except_bind_ok, except_pure_ok] at hrun
  obtain ⟨_, _, rfl⟩ := hrun
  exact ⟨rfl, rfl, .inl rfl, rfl, rfl, id, Nat.le_add_right _ _⟩

theorem closeWorkspace_ok {session : SessionRef} {now : Seconds}
    (h : r.closeWorkspace token session now = some r') : Writes r r' [] r.run.status ∨
      ∃ workspace, Writes r r' [.bare (.notice (.workspaceClosed workspace))] r.run.status := by
  unfold closeWorkspace at h
  split at h
  · cases h
    exact .inr ⟨_, record_writes⟩
  · split at h
    · cases h
      exact .inl ⟨rfl, rfl, .inl rfl, rfl, rfl, id, Nat.le_add_right _ _⟩
    · simp only [Option.bind_eq_bind, Option.bind_eq_some_iff, under_some, apply_some,
        Option.pure_def, Option.some.injEq] at h
      obtain ⟨_, ⟨_, rfl⟩, _, ⟨run, hrun, rfl⟩, rfl⟩ := h
      simp only [TaskRun.workspaceClosed, except_bind_ok, except_pure_ok] at hrun
      obtain ⟨_, _, _, _, rfl⟩ := hrun
      exact .inr ⟨_, rfl, rfl, .inl rfl, rfl, rfl, fun _ => rfl, Nat.le_add_right _ _⟩

theorem openLandingAsk_ok {askId : AskId} (h : r.openLandingAsk askId = some r') :
    ∃ e : RunEvent, e.body = .notice (.askOpened askId .approveLanding) ∧
      Writes r r' [e] r.run.status := by
  simp only [openLandingAsk, guard, Option.bind_eq_bind, Option.bind_eq_some_iff, Option.pure_def,
    Option.some.injEq] at h
  obtain ⟨_, _, rfl⟩ := h
  exact ⟨_, rfl, rfl, rfl, .inl rfl, rfl, rfl, id, Nat.le_add_right _ _⟩

theorem releaseLease_ok (h : r.releaseLease token = some r') : Writes r r' [] r.run.status := by
  simp only [releaseLease, Option.bind_eq_bind, Option.bind_eq_some_iff, under_some, Option.pure_def,
    Option.some.injEq] at h
  obtain ⟨_, ⟨_, rfl⟩, rfl⟩ := h
  exact dropLease_writes

theorem finishResume_ok {status : Option RunStatus} {session : SessionRef} {keepLease : Bool}
    (h : r.finishResume token status session keepLease = some r') :
    Writes r r' [{ body := .notice (.resumeFinished (status.getD .needsSession))
                   session := some session }] (status.getD r.run.status) := by
  simp only [finishResume, Option.bind_eq_bind, Option.bind_eq_some_iff, under_some, Option.pure_def,
    Option.some.injEq] at h
  obtain ⟨_, ⟨_, rfl⟩, r₁, h₁, rfl⟩ := h
  unfold moveResumed at h₁
  -- The status moves, or stays where none is given.
  have hrun : ∃ run, r₁ = { r with run := run } ∧ run.status = status.getD r.run.status ∧
      run.workspaceId = r.run.workspaceId ∧ run.workspaceClosedAt = r.run.workspaceClosedAt := by
    cases status with
    | none =>
        cases h₁
        exact ⟨r.run, rfl, rfl, rfl, rfl⟩
    | some status =>
        obtain ⟨run, hrun, rfl⟩ := apply_some.mp h₁
        simp only [TaskRun.finishResume, except_bind_ok, except_pure_ok] at hrun
        obtain ⟨_, _, _, _, rfl⟩ := hrun
        exact ⟨_, rfl, rfl, rfl, rfl⟩
  obtain ⟨run, rfl, hstatus, hid, hclosed⟩ := hrun
  have hrec : Writes r (({ r with run := run } : RunRecord).record
      { body := .notice (.resumeFinished (status.getD .needsSession)), session := some session })
      [_] (status.getD r.run.status) :=
    ⟨rfl, rfl, .inl rfl, hstatus, hid, by simp [record, hclosed], Nat.le_add_right _ _⟩
  split
  · exact hrec
  · generalize ({ r with run := run } : RunRecord).record
      { body := .notice (.resumeFinished (status.getD .needsSession)), session := some session }
      = ended at hrec
    have hdrop : Writes ended (ended.dropLease token) [] ended.run.status := dropLease_writes
    refine ⟨hdrop.log_eq.trans hrec.log_eq, hdrop.wrapper_eq.trans hrec.wrapper_eq, ?_,
      hdrop.status_eq.trans hrec.status_eq, hdrop.workspace_eq.trans hrec.workspace_eq,
      fun hc => hdrop.closed_of_closed (hrec.closed_of_closed hc), ?_⟩
    · rcases hdrop.lease_eq with hl | hl
      · rw [hl]
        exact hrec.lease_eq
      · exact .inr hl
    · exact hdrop.typed_le.trans hrec.typed_le

theorem beginIntegration_ok {main : CommitSha} (h : r.beginIntegration token main = some r') :
    (r.lease = none ∨ r.lease = some token) ∧ r'.lease = some token ∧
      ∃ previous, Writes r.unleased r'.unleased
        [.bare (.milestone (.integrationStarted main previous))] .integrating := by
  simp only [beginIntegration, guard, Option.bind_eq_bind, Option.bind_eq_some_iff, apply_some,
    Option.pure_def, Option.some.injEq] at h
  obtain ⟨_, hlease, _, ⟨run, hrun, rfl⟩, rfl⟩ := h
  simp only [TaskRun.beginIntegration, except_bind_ok, except_pure_ok] at hrun
  obtain ⟨_, _, rfl⟩ := hrun
  refine ⟨?_, rfl, _, rfl, rfl, .inl rfl, rfl, rfl, id, Nat.le_add_right _ _⟩
  split at hlease
  · rename_i hall
    cases hr : r.lease with
    | none => exact .inl rfl
    | some holder => exact .inr (by simpa [hr] using hall)
  · cases hlease

theorem leaveIntegration_ok {landed : LandingEnd} (h : r.leaveIntegration token landed = some r') :
    r.lease = some token ∧ ∃ status, status ≠ .validating ∧
      Writes r r' [.bare (.notice (landed.notice status))] status := by
  simp only [leaveIntegration, Option.bind_eq_bind, Option.bind_eq_some_iff, under_some, apply_some,
    Option.pure_def, Option.some.injEq] at h
  obtain ⟨_, ⟨hl, rfl⟩, _, ⟨run, hrun, rfl⟩, rfl⟩ := h
  -- None of the four ends goes back to validating.
  have hkept : run.workspaceId = r.run.workspaceId ∧
      run.workspaceClosedAt = r.run.workspaceClosedAt ∧ run.status ≠ .validating := by
    cases landed with
    | integrated commit mainBefore =>
        simp only [LandingEnd.command, TaskRun.finishIntegration, except_bind_ok,
          except_pure_ok] at hrun
        obtain ⟨_, _, rfl⟩ := hrun
        exact ⟨rfl, rfl, by simp⟩
    | deferred code =>
        simp only [LandingEnd.command, TaskRun.deferIntegration, TaskRun.leaveIntegration,
          except_bind_ok, except_pure_ok] at hrun
        obtain ⟨_, _, rfl⟩ := hrun
        exact ⟨rfl, rfl, by simp⟩
    | failed =>
        simp only [LandingEnd.command, TaskRun.failIntegration, TaskRun.leaveIntegration,
          except_bind_ok, except_pure_ok] at hrun
        obtain ⟨_, _, rfl⟩ := hrun
        exact ⟨rfl, rfl, by simp⟩
    | aborted revertTo code =>
        simp only [LandingEnd.command, TaskRun.abortIntegration, TaskRun.leaveIntegration,
          except_bind_ok, except_pure_ok, require_ok] at hrun
        obtain ⟨_, hto, _, _, rfl⟩ := hrun
        refine ⟨rfl, rfl, fun hs => ?_⟩
        have hs : revertTo = .validating := hs
        simp [hs] at hto
  obtain ⟨hid, hclosed, hstatus⟩ := hkept
  have hdrop : ({ r with run := run } : RunRecord).dropLease token
      = ({ r with run := run } : RunRecord).unleased := if_pos hl
  refine ⟨hl, run.status, hstatus, ?_⟩
  rw [hdrop]
  exact ⟨rfl, rfl, .inr rfl, rfl, hid, by simp [hclosed, notice, record, unleased],
    Nat.le_add_right _ _⟩

theorem parkRechecked_ok {holder : Option Token} {code : ReasonCode}
    (h : r.parkRechecked holder code = some r') :
    r'.lease = none ∧
      Writes r r' [.bare (.notice (.landingRecheckFailed code .needsSession))] .needsSession := by
  simp only [parkRechecked, guard, Option.bind_eq_bind, Option.bind_eq_some_iff, apply_some,
    Option.pure_def, Option.some.injEq] at h
  obtain ⟨_, _, _, ⟨run, hrun, rfl⟩, rfl⟩ := h
  simp only [TaskRun.parkAfterRecheck, except_bind_ok, except_pure_ok] at hrun
  obtain ⟨_, _, rfl⟩ := hrun
  exact ⟨rfl, rfl, rfl, .inr rfl, rfl, rfl, id, Nat.le_add_right _ _⟩

theorem finishTriage_ok {action : TriageAction} (h : r.finishTriage token action = some r') :
    r.run.status ≠ .validating ∧ ∃ status, status ≠ .validating ∧
      Writes r r' [.bare (.notice (.triageFinished action status))] status := by
  simp only [finishTriage, guard, Option.bind_eq_bind, Option.bind_eq_some_iff, under_some,
    Option.pure_def, Option.some.injEq] at h
  obtain ⟨_, ⟨_, rfl⟩, _, hguard, r₁, h₁, rfl⟩ := h
  have hstatus : r.run.status ≠ .validating := by
    intro hs
    simp [TaskRun.checkTriageable, TaskRun.requireStatus, require, hs, Except.isOk,
      Except.toBool] at hguard
  refine ⟨hstatus, ?_⟩
  unfold moveTriaged at h₁
  split at h₁
  · cases h₁
    exact ⟨_, hstatus, record_writes⟩
  · obtain ⟨run, hrun, rfl⟩ := apply_some.mp h₁
    simp only [TaskRun.resumeAfterTriage, except_bind_ok, except_pure_ok] at hrun
    obtain ⟨_, _, rfl⟩ := hrun
    exact ⟨_, by simp, rfl, rfl, .inl rfl, rfl, rfl, id, Nat.le_add_right _ _⟩

end RunRecord

end Dagq
