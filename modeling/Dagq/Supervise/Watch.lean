/-
# Dagq.Supervise.Watch -- the slots of supervisors, pass by pass.

A supervisor keeps a slot for each run it leases and steps it once per pass.  What a pass finds (a
marker, a verdict, a silence) is an input here; what it then writes and in which phase it leaves the
slot is computed as the supervisor does.  Each turn below makes at most one write, so that a supervisor
may die between any two: the phases named last are the positions inside a pass.
-/
import Dagq.Lib.Machine
import Dagq.Supervise.RunRecord

namespace Dagq

/-! ## Phases -/

/-- What the supervisor does once the session exited and its workspace closed. -/
inductive AfterExit
  | land
  | ask
  | reviewFailed
  | rest (close : Bool)
  deriving DecidableEq

/-- Asks the run's session to exit once, unless it ended already, and waits for its wrapper. -/
structure ExitWatch where
  session : Option SessionRef
  after : AfterExit
  requested : Bool := false

/-- Watches one resumed session. -/
structure ResumeWatch where
  session : SessionRef
  approved : Bool
  exitRequested : Bool := false

/-- What the live session was asked to fix. -/
inductive Fix
  | revise | conflict

inductive Phase
  /-- The worker's own session, in its workspace. -/
  | session (workspace : String) (exitRequested : Bool)
  | validating (session : Option SessionRef)
  | review (session : Option SessionRef) (retried : Bool)
  | revise (session : SessionRef) (fix : Fix)
  | exiting (watch : ExitWatch)
  | resume (watch : ResumeWatch)
  | awaitingSlot
  | landing
  /-- The recovery job of a `failed` or `interrupted` run. -/
  | recovery
  /-- Inside a pass: leased to this supervisor, whose slot is not built yet. -/
  | taken
  /-- A review is about to be recorded. -/
  | reviewing (session : Option SessionRef) (retried : Bool)
  /-- A `revise` verdict is recorded. -/
  | revising (session : Option SessionRef)
  /-- A `pass` verdict is recorded: the conflict precheck comes next. -/
  | passed (session : Option SessionRef)
  /-- A request to fix is recorded and about to be typed. -/
  | asking (session : SessionRef) (fix : Fix)
  /-- The end of a fix is recorded. -/
  | rewritten (session : SessionRef)
  /-- The session is gone. -/
  | gone (session : Option SessionRef) (after : AfterExit)
  /-- The ask of a failed review is open, or could not be opened. -/
  | failing
  /-- Only the lease is left to give back. -/
  | leaving

/-- The phases a pass finds a slot in and checks the lease for; a landing is joined first. -/
def Phase.checksLease : Phase → Bool
  | .session .. | .validating _ | .review .. | .revise .. | .exiting _ | .resume _ | .awaitingSlot
  | .recovery => true
  | _ => false

/-- The phases a slot may rest in between two passes. -/
def Phase.atRest : Phase → Bool
  | .landing => true
  | phase => phase.checksLease

/-- Whether the next process can rebuild the phase: a handoff waits for a validation or a landing. -/
def Phase.rebuildable : Phase → Bool
  | .validating _ | .awaitingSlot | .landing => false
  | phase => phase.atRest

/-! ## Adoption -/

/-- How many `revise` verdicts are sent back to the live session of one run. -/
def maxReviseAttempts : Nat := 2

namespace RunRecord

variable (r : RunRecord)

/-- Wait for the session's exit, asked for already when an `exit_requested` follows the anchor.  An ask
opened since the anchor is waited for rather than asked again. -/
def exits (after : AfterExit) : Phase :=
  .exiting {
    session := r.sessionOf
    after := if after = .ask ∧ r.unclosedLandingAskAfter.isSome then .rest true else after
    requested := r.after EventBody.isExitRequest }

/-- Rebuild an adopted run awaiting integration from its events: the write this makes, and the phase. -/
def adoptReview : RunRecord × Phase :=
  let review : Phase := .reviewing r.sessionOf false
  match r.fromAnchor with
  | [] => (r, review)
  | anchor :: _ =>
      match anchor.body with
      | .runtime .reviewStarted =>
          -- The ask was opened for a review that failed: its failure is recorded where it is not yet.
          if r.unclosedLandingAskAfter.isSome then
            (if r.after EventBody.isReviewFailure = true then r else r.runtime .reviewFailed,
              r.exits (.rest true))
          else (r, review)
      | .runtime .reviseRequested =>
          match r.sessionOf with
          | some live => (r, if r.sessionAlive = true then .revise live .revise else review)
          | none => (r, review)
      | .runtime (.conflictPrecheck _ true) =>
          match r.sessionOf, r.passedBefore with
          | some live, some _ => (r, if r.sessionAlive = true then .revise live .conflict else review)
          | _, _ => (r, review)
      | .runtime .reviseUnsent => (r, if r.passedBefore.isSome then r.exits .ask else review)
      | .runtime (.reviewFinished .pass) =>
          (r, if r.after EventBody.isExitRequest = true then r.exits .land else .passed r.sessionOf)
      | .runtime (.reviewFinished _) => (r, r.exits .ask)
      | .runtime (.conflictPrecheck _ false) =>
          if r.passedBefore.isNone then (r, review)
          else if r.after EventBody.isExitRequest = true then
            (r, r.exits (if anchor.asked = true then .ask else .land))
          else (r, .passed r.sessionOf)
      | .milestone (.validationFinished ..) =>
          if r.hasEvent EventBody.isApproval = true then (r, r.exits .land)
          else if r.parkedByRecheck && r.hasUnclosedLandingAsk then (r, r.exits (.rest true))
          else (r, review)
      | _ => (r, review)

/-- Rebuild the slot of a run taken over from what the queue holds of it. -/
def rebuilt : Option (RunRecord × Phase) :=
  match r.run.status with
  | .awaitingIntegration => some r.adoptReview
  | .validating => some (r, .validating r.sessionOf)
  | _ => r.run.workspaceId.map fun workspace =>
      (r, .session workspace (r.hasEvent EventBody.isExitRequest))

/-- Whether a run whose supervisor is gone is taken over rather than recovered. -/
def isAdoptable : Bool :=
  r.run.status = .awaitingIntegration || r.skippedResume || r.sessionAlive || r.sessionEnded

/-- Record the request to exit and type it, unless the supervisor does not get that far. -/
def requestExit (typed : Bool) : RunRecord :=
  { r.runtime .exitRequested with typed := if typed = true then r.typed + 1 else r.typed }

end RunRecord

/-! ## Turns -/

/-- What a resumed session left behind when it ended. -/
inductive ResumeOutcome
  | resolved | failed | unresolved
  deriving DecidableEq

/-- What a turn finds. -/
inductive Seen
  /-- Nothing to see: the pass goes on to its next write. -/
  | goesOn
  /-- The session went idle after its receipt. -/
  | idle
  /-- The session ended, or will not fix what it was asked to. -/
  | ended
  /-- The session is to be asked to exit; `typed` says whether the exit text was submitted. -/
  | asksExit (typed : Bool)
  | validated (validation : Validation)
  /-- The review job started, or could not. -/
  | started (ok : Bool)
  | verdict (verdict : ReviewDecision)
  /-- The review printed no readable verdict. -/
  | unreadable
  | reviewFailed
  /-- The head merges into main, or Git cannot judge. -/
  | merges
  | conflicts
  /-- The request to fix was typed, or could not be. -/
  | sent (ok : Bool)
  /-- The receipt was rewritten and names the clean head. -/
  | rewritten
  /-- The workspace is closed at `now`, or could not be. -/
  | closed (now : Option Seconds)
  /-- The ask of the run is opened, or could not be. -/
  | asked (askId : Option AskId)
  | resumed (outcome : ResumeOutcome)
  | begins (main : CommitSha)
  /-- The landing recheck found the head not landing on this main. -/
  | parks (code : ReasonCode)
  | landed (landed : RunRecord.LandingEnd)
  | triaged (action : TriageAction)

/-- What a turn leaves: the record, and the phase of the slot unless the slot is done. -/
abbrev Turn := RunRecord × Option Phase

section Turns

variable (r : RunRecord) (token : Token)

def waitForExit (session : Option SessionRef) (after : AfterExit) : Phase :=
  .exiting { session := session, after := after }

/-- Where an accepted or refused run goes. -/
def afterValidation (session : Option SessionRef) : Phase :=
  match r.run.status with
  | .awaitingIntegration =>
      if r.hasEvent EventBody.isApproval = true then waitForExit session .land
      else if r.parkedByRecheck && r.hasUnclosedLandingAsk then waitForExit session (.rest true)
      else .reviewing session false
  | .needsSession => waitForExit session (.rest true)
  | _ => waitForExit session (.rest false)

def pollValidation (session : Option SessionRef) : Seen → Option Turn
  | .validated validation => do
      let r ← r.finishValidation token validation
      return (r, some (afterValidation r session))
  | _ => some (r, some (.validating session))

/-- Record that a review starts; one that cannot start is a failed one. -/
def beginReview (session : Option SessionRef) (retried : Bool) : Seen → RunRecord × Phase
  | .started ok => (r.runtime .reviewStarted,
      if ok = true then .review session retried else waitForExit session .reviewFailed)
  | _ => (r, .reviewing session retried)

def actOnVerdict (session : Option SessionRef) : ReviewDecision → Phase
  | .pass => .passed session
  | .concern => waitForExit session .ask
  | .revise => .revising session

/-- A `revise` verdict goes to the live session while revises are left, and to a person otherwise.  The
request is recorded before it is typed. -/
def requestRevise (session : Option SessionRef) : RunRecord × Phase :=
  if maxReviseAttempts ≤ r.sentRevises then (r, waitForExit session .ask)
  else match session with
    | some live =>
        if r.sessionAlive = true then (r.runtime .reviseRequested, .asking live .revise)
        else (r, waitForExit session .ask)
    | none => (r, waitForExit session .ask)

def conflictPrecheck (requested asked unsent : Bool) : RunRecord :=
  r.record
    { body := .runtime (.conflictPrecheck (some .rebaseConflict) requested)
      asked := asked, unsent := unsent }

/-- A passed head that conflicts with main: the live session is asked to rebase it.  Past the limit a
person is asked; without a session the landing parks the run. -/
def requestRebase (session : Option SessionRef) : RunRecord × Phase :=
  if maxResumeAttempts ≤ r.sentConflictRequests + (ResumeCount.of r.bodies).counted then
    (conflictPrecheck r false true false, waitForExit session .ask)
  else match session with
    | some live =>
        if r.sessionAlive = true then (conflictPrecheck r true false false, .asking live .conflict)
        else (conflictPrecheck r false false false, waitForExit session .land)
    | none => (conflictPrecheck r false false false, waitForExit session .land)

/-- Before a passed run's session is asked to exit: whether its head merges into the current main. -/
def precheck (session : Option SessionRef) : Seen → RunRecord × Phase
  | .merges => (r, waitForExit session .land)
  | .conflicts => requestRebase r session
  | _ => (r, .passed session)

def finishRevise : Fix → RunRecord
  | .revise => r.runtime .reviseFinished
  | .conflict => r.runtime .conflictResolved

def ResumeWatch.ends (watch : ResumeWatch) (outcome : ResumeOutcome) : Bool :=
  r.sessionEnded
    || (outcome = .resolved && !watch.exitRequested && !watch.approved && r.sessionAlive)
    || (outcome = .unresolved && watch.exitRequested)

/-- The resumed session ended, or resolved the run. -/
def finishResumedSession (watch : ResumeWatch) (outcome : ResumeOutcome) : Option Turn :=
  match outcome with
  | .resolved =>
      if r.hasEvent EventBody.isApproval = true then do
        let r ← r.finishResume token none watch.session true
        return (r, some .awaitingSlot)
      else do
        let r ← r.finishResume token (some .validating) watch.session true
        return (r, some (.validating (some watch.session)))
  | .failed => do
      let r ← r.finishResume token (some .failed) watch.session false
      return (r, none)
  | .unresolved => do
      let r ← r.finishResume token none watch.session false
      return (r, none)

def pollSession (workspace : String) (exitRequested : Bool) : Seen → Option Turn
  | .idle =>
      if exitRequested || r.sessionEnded then some (r, some (.session workspace exitRequested))
      else do
        let r ← r.finishSupervisionLive token
        return (r, some (.validating (some { workspace := workspace })))
  | .ended => do
      let r ← r.finishSupervision token
      return (r, some (if r.run.status = .validating then
        .validating (some { workspace := workspace }) else .leaving))
  | .asksExit typed =>
      if exitRequested || !r.sessionAlive then some (r, some (.session workspace exitRequested))
      else some (r.requestExit typed, some (.session workspace true))
  | _ => some (r, some (.session workspace exitRequested))

/-- Whether the session is gone, the single request to exit, and the close of a workspace whose session
cannot be asked while the run lands. -/
def pollExit (watch : ExitWatch) : Seen → Option Turn
  | .goesOn =>
      if watch.session.isNone || !r.sessionAlive then some (r, some (.gone watch.session watch.after))
      else some (r, some (.exiting watch))
  | .asksExit typed =>
      if watch.requested || watch.session.isNone || !r.sessionAlive then
        some (r, some (.exiting watch))
      else some (r.requestExit typed, some (.exiting { watch with requested := true }))
  | .closed (some now) =>
      match watch.session, watch.after with
      | some session, .land =>
          if watch.requested = true then do
            let r ← r.closeWorkspace token session now
            return (r, some (.gone none .land))
          else some (r, some (.exiting watch))
      | _, _ => some (r, some (.exiting watch))
  | _ => some (r, some (.exiting watch))

def pollResume (watch : ResumeWatch) : Seen → Option Turn
  | .asksExit typed =>
      if watch.exitRequested || !r.sessionAlive then some (r, some (.resume watch))
      else some (r.requestExit typed, some (.resume { watch with exitRequested := true }))
  | .resumed outcome =>
      if watch.ends r outcome = true then finishResumedSession r token watch outcome
      else some (r, some (.resume watch))
  | _ => some (r, some (.resume watch))

/-- What follows once the session is gone: its workspace is closed, and the run moves on. -/
def afterExit (session : Option SessionRef) (after : AfterExit) : Seen → Option Turn
  | .closed now =>
      match session, now with
      | some session, some now => do
          let r ← r.closeWorkspace token session now
          return (r, some (.gone none after))
      | _, _ => some (r, some (.gone none after))
  | .goesOn =>
      if session.isSome && after ≠ .rest false then some (r, some (.gone session after))
      else match after with
        | .land => some (r, some .awaitingSlot)
        | .rest _ => some (r, some .leaving)
        | _ => some (r, some (.gone session after))
  | .asked askId =>
      match session, after, askId with
      | none, .ask, some askId => do
          let r ← r.openLandingAsk askId
          return (r, some .leaving)
      | none, .reviewFailed, some askId => do
          let r ← r.openLandingAsk askId
          return (r, some .failing)
      | none, .reviewFailed, none => some (r, some .failing)
      | _, _, _ => some (r, some (.gone session after))
  | _ => some (r, some (.gone session after))

/-- The headless review of an accepted run: its verdict, a second review when the first printed none,
and a person otherwise. -/
def pollReview (session : Option SessionRef) (retried : Bool) : Seen → RunRecord × Phase
  | .verdict verdict => (r.runtime (.reviewFinished verdict), actOnVerdict session verdict)
  | .unreadable =>
      (r, if retried = true then waitForExit session .reviewFailed else .reviewing session true)
  | .reviewFailed => (r, waitForExit session .reviewFailed)
  | _ => (r, .review session retried)

/-- A request that could not be typed is withdrawn: a person is asked instead of a revise, and the
landing parks a conflict. -/
def typeRequest (live : SessionRef) : Fix → Seen → RunRecord × Phase
  | fix, .sent true => (r, .revise live fix)
  | .revise, .sent false => (r.runtime .reviseUnsent, waitForExit (some live) .ask)
  | .conflict, .sent false => (conflictPrecheck r false false true, waitForExit (some live) .land)
  | fix, _ => (r, .asking live fix)

def pollRevise (live : SessionRef) (fix : Fix) : Seen → RunRecord × Phase
  | .rewritten =>
      if r.sessionAlive = true then (finishRevise r fix, .rewritten live)
      else (r, .revise live fix)
  | .ended => (r, waitForExit (some live) .ask)
  | _ => (r, .revise live fix)

/-- The run waits for the integration slot, unless the landing recheck parked it or this supervisor
stops. -/
def pollSlot : Seen → Option Turn
  | .begins main => do
      let r ← r.beginIntegration token main
      return (r, some .landing)
  | .parks code => do
      let r ← r.parkRechecked (some token) code
      return (r, none)
  | .ended => do
      let r ← r.releaseLease token
      return (r, none)
  | _ => some (r, some .awaitingSlot)

def pollLanding : Seen → Option Turn
  | .landed landed => do
      let r ← r.leaveIntegration token landed
      return (r, none)
  | .ended => some (r, none)
  | _ => some (r, some .landing)

def pollRecovery : Seen → Option Turn
  | .triaged action => do
      let r ← r.finishTriage token action
      return (r, some .leaving)
  | .ended => some (r, some .leaving)
  | _ => some (r, some .recovery)

/-- A write inside a pass. -/
def goesOn (phase : Phase) : Seen → Option Turn → Option Turn
  | .goesOn, turn => turn
  | _, _ => some (r, some phase)

def moves (turn : RunRecord × Phase) : Option Turn := some (turn.1, some turn.2)

/-- One turn of a slot of `token`: `none` when it goes wrong.  What does not belong to the phase changes
nothing. -/
def takeTurn (phase : Phase) (seen : Seen) : Option Turn :=
  match phase with
  | .session workspace exitRequested => pollSession r token workspace exitRequested seen
  | .validating session => pollValidation r token session seen
  | .review session retried => moves (pollReview r session retried seen)
  | .revise live fix => moves (pollRevise r live fix seen)
  | .exiting watch => pollExit r token watch seen
  | .resume watch => pollResume r token watch seen
  | .awaitingSlot => pollSlot r token seen
  | .landing => pollLanding r token seen
  | .recovery => pollRecovery r token seen
  | .taken => goesOn r phase seen (r.rebuilt.bind moves)
  | .reviewing session retried => moves (beginReview r session retried seen)
  | .revising session => goesOn r phase seen (moves (requestRevise r session))
  | .passed session => moves (precheck r session seen)
  | .asking live fix => moves (typeRequest r live fix seen)
  | .rewritten live => goesOn r phase seen do
      let r ← r.restartValidation token
      return (r, some (.validating (some live)))
  | .gone session after => afterExit r token session after seen
  | .failing => goesOn r phase seen (moves (r.runtime .reviewFailed, .leaving))
  | .leaving => goesOn r phase seen do
      let r ← r.releaseLease token
      return (r, none)

/-- A turn that goes wrong gives the run up: a resume is recorded as ended, and the lease goes. -/
def Phase.fails (phase : Phase) : RunRecord :=
  match phase with
  | .resume watch => (r.finishResume token none watch.session false).getD r
  | .landing => r
  | _ => r.dropLease token

end Turns

/-! ## The slots of every supervisor -/

/-- A slot for the run: the supervisor it belongs to, and its phase. -/
structure Slot where
  token : Token
  phase : Phase

/-- A run and all that watches it. -/
structure Watched where
  record : RunRecord
  slots : List Slot := []
  /-- The `handoff.json` of the run directory, stamped with the supervisor that wrote it. -/
  snapshot : Option Slot := none
  /-- The supervisors whose process is being replaced. -/
  handedOver : List Token := []

/-- How a supervisor comes to watch the run. -/
inductive Opening
  | adopt (previous : Token)
  | beginResume (main : CommitSha) (workspace : String)
  | skipResume (head main : CommitSha)
  /-- The answer `land` of the run's ask is applied, once the approval is recorded. -/
  | land (main : CommitSha)
  | beginTriage

/-- The write with which `token` takes the run, and the phase of its slot. -/
def Opening.take (token : Token) (r : RunRecord) : Opening → Option (RunRecord × Phase)
  | .adopt previous => do
      guard (previous ≠ token ∧ r.isAdoptable = true)
      let r ← r.adopt previous token
      return (r, .taken)
  | .beginResume main workspace => do
      let r ← r.beginResume token main
      return (r, .resume {
        session := { workspace := workspace, resume := some (ResumeCount.of r.bodies).total }
        approved := r.hasEvent EventBody.isApproval })
  | .skipResume head main => do
      let r ← r.skipResume token head main
      return (r, if r.run.status = .validating then .validating none else .awaitingSlot)
  | .land main => do
      guard (r.lease.isNone ∧ r.hasEvent EventBody.isApproval ∧
        r.run.status = .awaitingIntegration)
      let r ← r.beginIntegration token main
      return (r, .landing)
  | .beginTriage => do
      let r ← r.beginTriage token
      return (r, .recovery)

/-- What the session, a person or a landing that a person started does to the run. -/
inductive Outside
  | registerWrapper (token : Token)
  | registerAgent (pid : Pid)
  | registerResumeAgent (pid : Pid)
  | wrapperExited (code : Int)
  | wrapperDies
  | approve
  | integrate (token : Token) (main : CommitSha)
  | leaveIntegration (token : Token) (landed : RunRecord.LandingEnd)
  | decideLanding (status : RunStatus) (code : ReasonCode)
  | parkRechecked (code : ReasonCode)
  | openAsk (askId : AskId)
  | closeAsk (askId : AskId)
  | recover
  | decideTriage (askId : AskId) (answer : String)
  | exhaustResumes
  | sweepWorkspace (workspace : String) (now : Seconds)

def Outside.write (r : RunRecord) : Outside → Option RunRecord
  | .registerWrapper token => r.registerWrapper token
  | .registerAgent pid => r.registerAgent pid
  | .registerResumeAgent pid => r.registerResumeAgent pid
  | .wrapperExited code => r.wrapperExited code
  | .wrapperDies => some r.wrapperDies
  | .approve => some (r.runtime .integrationApproved)
  | .integrate token main => do
      guard (r.lease.isNone ∧ r.hasEvent EventBody.isApproval)
      r.beginIntegration token main
  | .leaveIntegration token landed => r.leaveIntegration token landed
  | .decideLanding status code => r.decideLanding status code
  | .parkRechecked code => r.parkRechecked none code
  | .openAsk askId => some (r.notice (.askOpened askId .approveLanding))
  | .closeAsk askId => some { r with closedAsks := askId :: r.closedAsks }
  | .recover => r.recover
  | .decideTriage askId answer => r.decideTriage askId answer
  | .exhaustResumes => r.exhaustResumes
  | .sweepWorkspace workspace now => r.sweepWorkspace workspace now

inductive WatchOp
  /-- A turn of the slot at `n`. -/
  | turn (n : Nat) (seen : Seen)
  /-- The turn of the slot at `n` goes wrong for a reason of its own. -/
  | fail (n : Nat)
  /-- The process of a supervisor dies, with every slot it has. -/
  | crash (token : Token)
  | handOff (token : Token)
  /-- The next process of a handed-over supervisor takes the run over. -/
  | rebuild (token : Token)
  | opens (token : Token) (opening : Opening)
  | outside (op : Outside)

namespace Watched

variable (w : Watched)

/-- The supervisor `token` comes to watch the run.  A process that is being replaced does nothing. -/
def opens (token : Token) (opening : Opening) : Watched :=
  if token ∈ w.handedOver then w
  else match opening.take token w.record with
    | some (record, phase) =>
        { w with record := record, slots := w.slots ++ [{ token := token, phase := phase }] }
    | none => w

/-- The slot at `n`, of `token`, is left in `phase`, or done. -/
def leaves (n : Nat) (token : Token) : Turn → Watched
  | (record, some phase) =>
      { w with record := record, slots := w.slots.set n { token := token, phase := phase } }
  | (record, none) => { w with record := record, slots := w.slots.eraseIdx n }

def gives (n : Nat) (slot : Slot) : Watched :=
  { w with record := slot.phase.fails w.record slot.token, slots := w.slots.eraseIdx n }

/-- One turn of the slot at `n`.  At the start of a pass the lease is checked: a run that another
process leases by now is not touched again. -/
def turn (n : Nat) (seen : Seen) : Watched :=
  match w.slots[n]? with
  | none => w
  | some slot =>
      if slot.phase.checksLease = true ∧ w.record.lease ≠ some slot.token then
        { w with slots := w.slots.eraseIdx n }
      else match takeTurn w.record slot.token slot.phase seen with
        | some turn => w.leaves n slot.token turn
        | none => w.gives n slot

def without (token : Token) : List Slot := w.slots.filter (·.token ≠ token)

/-- What a slot leaves for the next process beyond the queue: a resumed session, or the wait for the
exit of a run that rests. -/
def snapshotOf (slot : Slot) : Option Slot :=
  match slot.phase with
  | .resume _ => some slot
  | .exiting watch =>
      match watch.after with
      | .rest _ => if w.record.run.status = .awaitingIntegration then none else some slot
      | _ => none
  | _ => none

/-- The last step before a supervisor's process is replaced: every slot rests where the next process can
rebuild it.  The lease of a recovery round is given back. -/
def handOff (token : Token) : Watched :=
  let mine := w.slots.filter (·.token = token)
  if mine.all fun slot => slot.phase.rebuildable then
    { w with
      record := if mine.any fun slot => match slot.phase with | .recovery => true | _ => false then
        w.record.dropLease token else w.record
      slots := w.without token
      snapshot := (mine.findSome? w.snapshotOf).or w.snapshot
      handedOver := token :: w.handedOver }
  else w

/-- The first step of the next process: the run it leases gets a slot from its snapshot or from the
queue, or its lease is given back. -/
def rebuild (token : Token) : Watched :=
  if token ∈ w.handedOver then
    let w := { w with handedOver := w.handedOver.filter (· ≠ token) }
    if w.record.lease = some token then
      match w.snapshot.filter (·.token = token) with
      | some slot => { w with slots := w.slots ++ [slot], snapshot := none }
      | none =>
          match w.record.run.status with
          | .claimed | .starting | .running | .validating | .awaitingIntegration =>
              { w with slots := w.slots ++ [{ token := token, phase := .taken }], snapshot := none }
          | _ => { w with record := w.record.dropLease token, snapshot := none }
    else w
  else w

def step : WatchOp → Watched
  | .turn n seen => w.turn n seen
  | .fail n => match w.slots[n]? with
      | some slot => w.gives n slot
      | none => w
  | .crash token =>
      { w with slots := w.without token, handedOver := w.handedOver.filter (· ≠ token) }
  | .handOff token => w.handOff token
  | .rebuild token => w.rebuild token
  | .opens token opening => w.opens token opening
  | .outside op => match op.write w.record with
      | some record => { w with record := record }
      | none => w

end Watched

/-- The run as its supervisor provisioned it: starting, in its workspace. -/
def provisioned (taskId : TaskId) (baseCommit : CommitSha) (workspace : String) : TaskRun :=
  { taskId := taskId, status := .starting, baseCommit := baseCommit, workspaceId := some workspace }

/-- A run from its provisioning by `token` on, under any number of supervisors. -/
def watching (token : Token) (taskId : TaskId) (baseCommit : CommitSha) (workspace : String) :
    Lib.Machine Watched WatchOp where
  init := {
    record := { run := provisioned taskId baseCommit workspace, lease := some token }
    slots := [{ token := token, phase := .session workspace false }] }
  next := Watched.step

end Dagq
