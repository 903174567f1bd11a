/-
# Dagq.Domain.Sessions -- which spans an event closes and opens.

A span is a session open for one purpose.  Each kind of event closes some kinds of the spans open in its
scope and may then open one.  The last section says what every event has in common, so that nobody
else needs to look at the table.
-/
import Dagq.Domain.Values

namespace Dagq.Sessions

/-- Every kind of span. -/
inductive SpanKind
  | worker | resume | revise | review | triage | observer | planReview | runtimePlanner | inbox | planner
  deriving DecidableEq, Repr

/-- The kinds of a run's own session: the worker's, a resume's, and the revise it is sent back to. -/
def SpanKind.runSession : SpanKind → Bool
  | .worker | .resume | .revise => true
  | _ => false

/-- Why a span was closed. -/
inductive CloseReason
  | exited | jobFinished | nextSpan | inferred
  deriving DecidableEq, Repr

/-- The kinds of event that may open or close spans, and those the context counts. -/
inductive EventKind
  | agentStarted | reviseRequested | reviseUnsent | sessionExited | workspaceClosed | runRecovered
  | reviewStarted | reviewFinished | reviewFailed | reviewRetried
  | triageStarted | triageFinished | triageFailed
  | planReviewStarted | planReviewFinished | planReviewFailed
  | observeStarted | observeFinished
  | resumeStarted
  | other (kind : String)
  deriving DecidableEq

/-- Which open spans an event is about. -/
inductive Scope
  | run | proposal | queue
  deriving DecidableEq

/-- The scope of an event, when it may open or close a span. -/
def scope : EventKind → Option Scope
  | .agentStarted | .reviseRequested | .reviseUnsent | .sessionExited | .workspaceClosed
  | .runRecovered | .reviewStarted | .reviewFinished | .reviewFailed | .reviewRetried
  | .triageStarted | .triageFinished | .triageFailed => some .run
  | .planReviewStarted | .planReviewFinished | .planReviewFailed => some .proposal
  | .observeStarted | .observeFinished => some .queue
  | .resumeStarted | .other _ => none

/-- The keys of an event's payload that decide about spans. -/
structure Payload where
  sessionId : Option String := none
  workspaceId : Option String := none
  proposalId : Option Nat := none
  planReviewId : Option Nat := none
  attempt : Option Int := none
  cwd : Option String := none
  dir : Option String := none
  deriving DecidableEq

/-- The payload of a `session_opened`. -/
structure SpanPayload where
  kind : SpanKind
  sessionId : Option String := none
  cwd : Option String := none
  attempt : Option Int := none
  workspaceId : Option String := none
  proposalId : Option Nat := none
  planReviewId : Option Nat := none
  goalIds : List GoalId := []
  deriving DecidableEq

/-- A span that is open. -/
structure OpenSpan where
  openedEventId : Nat
  payload : SpanPayload
  deriving DecidableEq

def OpenSpan.kind (span : OpenSpan) : SpanKind := span.payload.kind

/-- What the runtime knows of the run or proposal an event is about. -/
structure SpanContext where
  worktree : Option String := none
  runDir : Option String := none
  workspaceId : Option String := none
  /-- The `resume_started` events the run has. -/
  resumes : Int := 0
  /-- The `revise_requested` events it has, but those a `revise_unsent` withdrew. -/
  revises : Int := 0
  goalIds : List GoalId := []

/-- A span to close, or one to open. -/
inductive SpanChange
  | close (span : OpenSpan) (reason : CloseReason)
  | opened (payload : SpanPayload)

/-- The span of a headless job. -/
def job (kind : SpanKind) (payload : Payload) (cwd : Option String) : SpanPayload :=
  { kind, sessionId := payload.sessionId, cwd, attempt := payload.attempt }

/-- The kind and attempt a run's session has when no revise is going on. -/
def ownSession (context : SpanContext) : SpanKind × Int :=
  if 0 < context.resumes then (.resume, context.resumes) else (.worker, 1)

/-- The spans an event closes and opens, given the spans open in its scope, oldest first. -/
def changes (kind : EventKind) (payload : Payload) (spans : List OpenSpan) (context : SpanContext) :
    List SpanChange :=
  let close := fun (kinds : List SpanKind) reason =>
    (spans.filter (·.kind ∈ kinds)).map (SpanChange.close · reason)
  let own := fun (session : SpanKind × Int) sessionId => SpanChange.opened
    { kind := session.1, sessionId, cwd := context.worktree, attempt := some session.2
      workspaceId := if session.1 = .worker then context.workspaceId else none }
  match kind with
  | .agentStarted =>
      close [.worker, .resume, .revise] .inferred ++ [own (ownSession context) payload.sessionId]
  | .reviseRequested =>
      -- The same session goes on as a revise.
      let latest := spans.reverse.find? (·.kind.runSession)
      close [.worker, .resume, .revise] .nextSpan ++ [.opened
        { kind := .revise, sessionId := latest.bind (·.payload.sessionId), cwd := context.worktree
          attempt := some context.revises, workspaceId := payload.workspaceId }]
  | .reviseUnsent =>
      -- A revise that could not be sent never reached the session: it goes on as what it was before.
      let reopened := spans.reverse.find? (·.kind = .revise)
      let session := if 0 < context.revises then (.revise, context.revises) else ownSession context
      close [.revise] .nextSpan ++ [own session (reopened.bind (·.payload.sessionId))]
  | .sessionExited => close [.worker, .resume, .revise] .exited
  | .workspaceClosed => close [.worker, .resume, .revise] .inferred
  | .runRecovered => close [.worker, .resume, .revise, .review] .inferred
  | .reviewStarted =>
      close [.review] .inferred ++ [.opened (job .review payload context.worktree)]
  | .reviewFinished | .reviewFailed | .reviewRetried => close [.review] .jobFinished
  | .triageStarted =>
      close [.worker, .resume, .revise, .review, .triage] .inferred ++
        [.opened (job .triage payload context.runDir)]
  | .triageFinished | .triageFailed => close [.triage] .jobFinished
  | .planReviewStarted =>
      close [.planReview] .inferred ++ [.opened
        { job .planReview payload payload.cwd with
          proposalId := payload.proposalId, planReviewId := payload.planReviewId
          goalIds := context.goalIds }]
  | .planReviewFinished | .planReviewFailed =>
      (spans.filter fun span =>
        span.kind = .planReview && span.payload.planReviewId = payload.planReviewId).map
          (SpanChange.close · .jobFinished)
  | .observeStarted =>
      close [.observer] .inferred ++ [.opened (job .observer payload payload.dir)]
  | .observeFinished =>
      (spans.filter fun span => span.kind = .observer && span.payload.cwd = payload.dir).map
        (SpanChange.close · .jobFinished)
  | .resumeStarted | .other _ => []

/-! ## What the table has in common -/

/-- The kinds of a run's spans an event of it closes. -/
def closedKinds : EventKind → List SpanKind
  | .agentStarted | .reviseRequested | .sessionExited | .workspaceClosed =>
      [.worker, .resume, .revise]
  | .reviseUnsent => [.revise]
  | .runRecovered => [.worker, .resume, .revise, .review]
  | .reviewStarted | .reviewFinished | .reviewFailed | .reviewRetried => [.review]
  | .triageStarted => [.worker, .resume, .revise, .review, .triage]
  | .triageFinished | .triageFailed => [.triage]
  | _ => []

/-- The kinds of span of which a run has one at a time: its session, its review, its triage. -/
inductive Place
  | session | review | triage
  deriving DecidableEq, Repr

/-- The place a span of the kind takes. -/
def SpanKind.place : SpanKind → Option Place
  | .worker | .resume | .revise => some .session
  | .review => some .review
  | .triage => some .triage
  | _ => none

/-- What `changes` found: it closes the spans some condition picks, for one reason, and then opens at
most one.  Whoever opens a span of a place closes every kind of that place first; only `revise_unsent`,
which puts back a session of the run, does not. -/
structure Follows (kind : EventKind) (spans : List OpenSpan) (found : List SpanChange)
    (closed : OpenSpan → Bool) (opened : Option SpanPayload) : Prop where
  eq : ∃ reason, found =
    (spans.filter closed).map (SpanChange.close · reason) ++ opened.toList.map SpanChange.opened
  closes : scope kind = some .run → ∀ span, closed span = decide (span.kind ∈ closedKinds kind)
  places : ∀ p ∈ opened, ∀ place, p.kind.place = some place → kind ≠ .reviseUnsent →
    ∀ k : SpanKind, k.place = some place → k ∈ closedKinds kind
  reopens : kind = .reviseUnsent → ∃ p ∈ opened, p.kind.place = some .session

theorem session_closed {k : SpanKind} (h : k.place = some .session) :
    k ∈ [SpanKind.worker, .resume, .revise] := by
  cases k <;> first | decide | cases h

theorem ownSession_place (context : SpanContext) :
    (ownSession context).1.place = some .session := by
  unfold ownSession
  split <;> rfl

/-- An event that only closes. -/
theorem Follows.only {kind : EventKind} {spans : List OpenSpan} {closed : OpenSpan → Bool}
    {reason : CloseReason} (hkind : kind ≠ .reviseUnsent)
    (hcloses : scope kind = some .run → ∀ span, closed span = decide (span.kind ∈ closedKinds kind)) :
    Follows kind spans ((spans.filter closed).map (SpanChange.close · reason)) closed none where
  eq := ⟨reason, (List.append_nil _).symm⟩
  closes := hcloses
  places p hp := by cases hp
  reopens h := absurd h hkind

/-- An event that closes, and opens a span whose kinds it closed. -/
theorem Follows.next {kind : EventKind} {spans : List OpenSpan} {closed : OpenSpan → Bool}
    {reason : CloseReason} {opened : SpanPayload} (hkind : kind ≠ .reviseUnsent)
    (hcloses : scope kind = some .run → ∀ span, closed span = decide (span.kind ∈ closedKinds kind))
    (hplace : ∀ place, opened.kind.place = some place → ∀ k : SpanKind, k.place = some place →
      k ∈ closedKinds kind) :
    Follows kind spans
      ((spans.filter closed).map (SpanChange.close · reason) ++ [SpanChange.opened opened]) closed
      (some opened) where
  eq := ⟨reason, rfl⟩
  closes := hcloses
  places p hp place hpl _ := by cases hp; exact hplace place hpl
  reopens h := absurd h hkind

theorem changes_follows (kind : EventKind) (payload : Payload) (spans : List OpenSpan)
    (context : SpanContext) :
    ∃ closed opened, Follows kind spans (changes kind payload spans context) closed opened := by
  cases kind with
  | agentStarted =>
      refine ⟨_, _, .next (by simp) (fun _ _ => rfl) fun place hplace k hk => ?_⟩
      rw [show (ownSession context).1.place = _ from ownSession_place context] at hplace
      cases hplace
      exact session_closed hk
  | reviseRequested =>
      refine ⟨_, _, .next (by simp) (fun _ _ => rfl) fun place hplace k hk => ?_⟩
      cases hplace
      exact session_closed hk
  -- Only the revise is closed, and the session goes on at its own place.
  | reviseUnsent =>
      refine ⟨fun span => decide (span.kind ∈ [.revise]), _, ⟨.nextSpan, rfl⟩, fun _ _ => rfl,
        fun p _ place _ h => absurd rfl h, fun _ => ⟨_, rfl, ?_⟩⟩
      show (if 0 < context.revises then _ else _ : SpanKind × Int).1.place = _
      split
      · rfl
      · exact ownSession_place context
  | sessionExited | workspaceClosed | runRecovered | reviewFinished | reviewFailed | reviewRetried
  | triageFinished | triageFailed => exact ⟨_, none, .only (by simp) fun _ _ => rfl⟩
  | reviewStarted | triageStarted =>
      refine ⟨_, _, .next (by simp) (fun _ _ => rfl) fun place hplace k hk => ?_⟩
      cases hplace
      cases k <;> first | decide | cases hk
  | planReviewStarted | observeStarted =>
      exact ⟨_, _, .next (by simp) (fun h => by cases h) fun place hplace => by cases hplace⟩
  | planReviewFinished | planReviewFailed | observeFinished =>
      exact ⟨_, none, .only (by simp) fun h => by cases h⟩
  | resumeStarted | other =>
      refine ⟨fun _ => false, none, ⟨.inferred, ?_⟩, (fun h => by cases h), (fun p hp => by cases hp),
        (fun h => by cases h)⟩
      simp [changes]

end Dagq.Sessions
