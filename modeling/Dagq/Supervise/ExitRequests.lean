/-
# Dagq.Supervise.ExitRequests -- how often a session is asked to exit.

The request to exit is recorded before it is typed, and the slot that made it remembers it.  A slot that
is gone is rebuilt from the events, so the request survives only where the rebuilt phase reads it back.
This file says when it does, and that along such runs no session is asked twice.
-/
import Dagq.Supervise.SlotRule

namespace Dagq

open Lib

/-! ## The requests on record -/

/-- How often the session that runs was asked to exit, newest event first: `none` before its agent
started and after it exited. -/
def exitsAsked : List RunEvent → Option Nat
  | [] => none
  | e :: older => match e.body with
      | .notice (.agentStarted _) => some 0
      | .notice (.sessionExited _) | .notice (.resumeStarted ..) | .notice (.resumeSkipped ..) => none
      | .runtime .exitRequested => (exitsAsked older).map (· + 1)
      | _ => exitsAsked older

namespace RunRecord

variable (r : RunRecord)

/-- The session runs and was asked to exit. -/
def exitBound : Bool := r.sessionAlive && (exitsAsked r.log).any (· ≠ 0)

def hasVerdict : Bool := r.hasEvent fun body => body.verdict?.isSome

/-- The request to exit is read back where a waiting run whose session was asked to exit is picked up:
by its anchor the run is past its review, or waits for a person. -/
def restoresExit : Bool :=
  !r.exitBound || r.run.status ≠ .awaitingIntegration || r.sessionOf.isNone ||
    match r.fromAnchor with
    | [] => false
    | anchor :: _ =>
        match anchor.body with
        | .runtime .reviewStarted => r.unclosedLandingAskAfter.isSome
        | .runtime (.reviewFinished _) | .runtime .reviseUnsent => true
        | .runtime (.conflictPrecheck _ requested) => !requested
        | .milestone (.validationFinished ..) =>
            r.hasEvent EventBody.isApproval || (r.parkedByRecheck && r.hasUnclosedLandingAsk)
        | _ => false

/-- What a handoff left is no older than the request to exit and the run's validation. -/
def keepsExit : Phase → Bool
  | .resume watch => r.run.status ≠ .validating && (watch.exitRequested || !r.exitBound)
  | .exiting watch =>
      r.run.status ≠ .validating && (watch.requested || watch.session.isNone || !r.exitBound)
  | _ => false

end RunRecord

/-! ## The invariant -/

/-- The event comes after a verdict of its own review. -/
def EventBody.followsVerdict : EventBody → Bool
  | .runtime .reviseUnsent | .runtime (.conflictPrecheck ..) => true
  | _ => false

/-- The session that runs was asked to exit once at most, and a request to it is found after the
anchor. -/
structure AsksOnce (r : RunRecord) : Prop where
  once : ∀ n, exitsAsked r.log = some n → n ≤ 1 ∧ r.typed ≤ n
  wrapped : r.wrapper = none → exitsAsked r.log = none
  validating : r.run.status = .validating → r.exitBound = false
  anchored : r.exitBound = true → r.sessionOf ≠ none → r.after EventBody.isExitRequest = true
  judged : ∀ anchor older, r.fromAnchor = anchor :: older → anchor.body.followsVerdict = true →
    older.any (fun e => e.body.verdict?.isSome) = true

/-- The slot knows the session of the run, and did not ask it to exit. -/
def Unasked (r : RunRecord) (session : Option SessionRef) : Prop :=
  r.run.status ≠ .validating ∧ (r.exitBound = true → session = none ∧ r.sessionOf = none)

/-- A slot that may ask its session to exit did not do so yet. -/
def RemembersExit (r : RunRecord) : Phase → Prop
  | .session _ exitRequested =>
      exitRequested = true ∨ r.run.status ≠ .validating ∧ r.exitBound = false
  | .validating session => session = none → r.sessionOf = none
  | .review session _ | .reviewing session _ => Unasked r session
  | .revise live _ | .rewritten live => Unasked r (some live)
  | .revising session | .passed session => Unasked r session ∧ r.hasVerdict = true
  | .asking live _ => Unasked r (some live) ∧ r.hasVerdict = true
  | .exiting watch =>
      watch.requested = true ∨
        r.run.status ≠ .validating ∧ (r.exitBound = true → watch.session = none)
  | .resume watch =>
      watch.exitRequested = true ∨ r.run.status ≠ .validating ∧ r.exitBound = false
  | _ => True

/-! ## What the events leave of it -/

section Events

variable {r r' : RunRecord} {es : List RunEvent}

/-- The kinds at which the count starts again, stops or goes up. -/
def EventBody.countsExits (body : EventBody) : Bool :=
  body.isSessionKind || body.isResumeKind || body.isExitRequest

theorem exitsAsked_cons {e : RunEvent} {older : List RunEvent} (he : e.body.countsExits = false) :
    exitsAsked (e :: older) = exitsAsked older := by
  rw [exitsAsked]
  split
  case h_6 => rfl
  all_goals
    rename_i hbody
    rw [hbody] at he
    cases he

theorem exitsAsked_of_plain {older : List RunEvent}
    (hes : ∀ e ∈ es, e.body.isWatchKind = false ∧ e.body.isSessionKind = false) :
    exitsAsked (es ++ older) = exitsAsked older := by
  induction es with
  | nil => rfl
  | cons e es ih =>
      obtain ⟨⟨hwatch, hsession⟩, hes⟩ := List.forall_mem_cons.mp hes
      rw [List.cons_append, exitsAsked_cons, ih hes]
      simp only [EventBody.isWatchKind, Bool.or_eq_false_iff] at hwatch
      obtain ⟨⟨_, hexit⟩, hresume⟩ := hwatch
      rw [EventBody.countsExits, hsession, hexit, hresume]
      rfl

/-- An event that moves the review along neither counts nor tells where the session lives. -/
theorem anchor_kinds {body : EventBody} (h : body.movesReview = true) :
    body.countsExits = false ∧ body.isResumeKind = false := by
  cases body with
  | notice n => cases h
  | milestone m => exact ⟨rfl, rfl⟩
  | runtime e => cases e <;> first | exact ⟨rfl, rfl⟩ | cases h

/-- What only a slot writes stays as it was: nothing happened, or something no slot does. -/
structure Eases (r r' : RunRecord) (es : List RunEvent) : Prop where
  log_eq : r'.log = es ++ r.log
  others : ∀ e ∈ es, e.body.isWatchKind = false
  bound : r'.exitBound = true → r.exitBound = true
  workspace_eq : r'.run.workspaceId = r.run.workspaceId
  closed_of_closed : r.run.workspaceClosedAt.isSome → r'.run.workspaceClosedAt.isSome

theorem Eases.anchors (h : Eases r r' es) : ∀ e ∈ es, e.body.movesReview = false := by
  intro e he
  have := h.others e he
  simp only [EventBody.isWatchKind, Bool.or_eq_false_iff] at this
  exact this.1.1

theorem Eases.sessionOf (h : Eases r r' es) (hr : r.sessionOf = none) : r'.sessionOf = none := by
  refine sessionOf_of_append h.log_eq (fun e he => ?_) h.workspace_eq h.closed_of_closed hr
  have := h.others e he
  simp only [EventBody.isWatchKind, Bool.or_eq_false_iff] at this
  exact this.2

theorem Eases.unbound (h : Eases r r' es) (hr : r.exitBound = false) : r'.exitBound = false :=
  Bool.eq_false_iff.mpr fun hb => by rw [h.bound hb] at hr; cases hr

theorem AsksOnce.eases (hK : AsksOnce r) (h : Eases r r' es)
    (honce : ∀ n, exitsAsked r'.log = some n → n ≤ 1 ∧ r'.typed ≤ n)
    (hwrapped : r'.wrapper = none → exitsAsked r'.log = none)
    (hvalidating : r'.run.status = .validating → r'.exitBound = false) : AsksOnce r' where
  once := honce
  wrapped := hwrapped
  validating := hvalidating
  anchored hb hs := after_of_append h.log_eq h.anchors
    (hK.anchored (h.bound hb) fun hnone => hs (h.sessionOf hnone))
  judged anchor older ha := by
    rw [fromAnchor_of_append h.log_eq h.anchors] at ha
    exact hK.judged anchor older ha

theorem Unasked.eases (h : Eases r r' es) {session : Option SessionRef} (hs : Unasked r session)
    (hv : r'.run.status ≠ .validating) : Unasked r' session :=
  ⟨hv, fun hb => ⟨(hs.2 (h.bound hb)).1, h.sessionOf (hs.2 (h.bound hb)).2⟩⟩

theorem RemembersExit.eases (h : Eases r r' es) {phase : Phase} (hS : RemembersExit r phase)
    (hv : r'.run.status = .validating → r.run.status = .validating) : RemembersExit r' phase := by
  have hverdict (hr : r.hasVerdict = true) : r'.hasVerdict = true := hasEvent_of_append h.log_eq hr
  have hunasked {session : Option SessionRef} (hs : Unasked r session) : Unasked r' session :=
    hs.eases h fun hs' => hs.1 (hv hs')
  have hquiet (hs : r.run.status ≠ .validating ∧ r.exitBound = false) :
      r'.run.status ≠ .validating ∧ r'.exitBound = false :=
    ⟨fun hs' => hs.1 (hv hs'), h.unbound hs.2⟩
  cases phase with
  | session workspace exitRequested => exact hS.imp_right hquiet
  | validating session => exact fun hnone => h.sessionOf (hS hnone)
  | review session retried => exact hunasked hS
  | reviewing session retried => exact hunasked hS
  | revise live fix => exact hunasked hS
  | rewritten live => exact hunasked hS
  | revising session => exact ⟨hunasked hS.1, hverdict hS.2⟩
  | passed session => exact ⟨hunasked hS.1, hverdict hS.2⟩
  | asking live fix => exact ⟨hunasked hS.1, hverdict hS.2⟩
  | exiting watch =>
      exact hS.imp_right fun ⟨hs, hb⟩ => ⟨fun hs' => hs (hv hs'), fun hb' => hb (h.bound hb')⟩
  | resume watch => exact hS.imp_right hquiet
  | _ => trivial

/-- A write of a slot that asks nothing and moves no review. -/
def Plain (es : List RunEvent) : Prop :=
  ∀ e ∈ es, e.body.isWatchKind = false ∧ e.body.isSessionKind = false

theorem exitBound_of_plain {status : RunStatus} (hw : r.Writes r' es status) (hes : Plain es) :
    r'.exitBound = r.exitBound := by
  unfold RunRecord.exitBound RunRecord.sessionAlive
  rw [hw.wrapper_eq, hw.log_eq, exitsAsked_of_plain hes]

theorem Eases.of_writes {status : RunStatus} (hw : r.Writes r' es status) (hes : Plain es) :
    Eases r r' es where
  log_eq := hw.log_eq
  others e he := (hes e he).1
  bound hb := exitBound_of_plain hw hes ▸ hb
  workspace_eq := hw.workspace_eq
  closed_of_closed := hw.closed_of_closed

theorem AsksOnce.writes {status : RunStatus} (hK : AsksOnce r) (hw : r.Writes r' es status)
    (hes : Plain es) (hv : status = .validating → r.exitBound = false) : AsksOnce r' := by
  have hlog : exitsAsked r'.log = exitsAsked r.log := by rw [hw.log_eq, exitsAsked_of_plain hes]
  refine hK.eases (.of_writes hw hes) (fun n hn => ?_) (fun hnone => ?_) fun hs => ?_
  · obtain ⟨hle, htyped⟩ := hK.once n (hlog ▸ hn)
    exact ⟨hle, (no_exit_typed hw.typed_le fun e he => (hes e he).1).trans htyped⟩
  · rw [hlog]
    exact hK.wrapped (hw.wrapper_eq ▸ hnone)
  · rw [exitBound_of_plain hw hes]
    exact hv (hw.status_eq ▸ hs)

/-! ### An anchor -/

variable {e : RunEvent}

theorem exitBound_record (he : e.body.countsExits = false) :
    (r.record e).exitBound = r.exitBound := by
  show (r.sessionAlive && (exitsAsked (e :: r.log)).any (· ≠ 0)) = _
  rw [exitsAsked_cons he]
  rfl

theorem sessionOf_record (he : e.body.isResumeKind = false) (hr : r.sessionOf = none) :
    (r.record e).sessionOf = none :=
  sessionOf_of_append (show (r.record e).log = [e] ++ r.log from rfl) (by simpa using he) rfl id hr

theorem Unasked.record (he : e.body.movesReview = true) {session : Option SessionRef}
    (hs : Unasked r session) : Unasked (r.record e) session := by
  obtain ⟨hexit, hresume⟩ := anchor_kinds he
  refine ⟨hs.1, fun hb => ?_⟩
  rw [exitBound_record hexit] at hb
  exact ⟨(hs.2 hb).1, sessionOf_record hresume (hs.2 hb).2⟩

/-- A slot that asked nothing may move the review along. -/
theorem AsksOnce.record (hK : AsksOnce r) (he : e.body.movesReview = true)
    {session : Option SessionRef} (hs : Unasked r session)
    (hverdict : e.body.followsVerdict = true → r.hasVerdict = true) : AsksOnce (r.record e) := by
  obtain ⟨hexit, hresume⟩ := anchor_kinds he
  have hlog : exitsAsked (r.record e).log = exitsAsked r.log := exitsAsked_cons hexit
  constructor
  · exact fun n hn => hK.once n (hlog ▸ hn)
  · exact fun hnone => hlog ▸ hK.wrapped hnone
  · exact fun hv => absurd hv hs.1
  · intro hb hsome
    rw [exitBound_record hexit] at hb
    exact absurd (sessionOf_record hresume (hs.2 hb).2) hsome
  · intro anchor older ha hfollows
    rw [fromAnchor_of_anchor (r := r) rfl he, List.cons.injEq] at ha
    obtain ⟨rfl, rfl⟩ := ha
    exact hverdict hfollows

/-! ### A request -/

/-- A slot that remembers no request may ask a session that runs. -/
theorem AsksOnce.requestExit (hK : AsksOnce r) {typed : Bool} (halive : r.sessionAlive = true)
    (hv : r.run.status ≠ .validating) (hb : r.exitBound = false) :
    AsksOnce (r.requestExit typed) := by
  have hlog : exitsAsked (r.requestExit typed).log = (exitsAsked r.log).map (· + 1) := rfl
  constructor
  · intro n hn
    rw [hlog] at hn
    obtain ⟨m, hm, rfl⟩ := Option.map_eq_some_iff.mp hn
    have hzero : m = 0 := by simpa [RunRecord.exitBound, halive, hm] using hb
    have hnone := (hK.once m hm).2
    refine ⟨by omega, ?_⟩
    show (if typed = true then r.typed + 1 else r.typed) ≤ m + 1
    split <;> omega
  · intro hnone
    rw [hlog, hK.wrapped hnone]
    rfl
  · exact fun hs => absurd hs hv
  · intro _ _
    rfl
  · intro anchor older ha
    rw [fromAnchor_of_cons (r := r) rfl rfl] at ha
    exact hK.judged anchor older ha

end Events

end Dagq
