/-
# Dagq.Supervise.ExitOnce -- no session is asked to exit twice.

Each turn of a slot, each adoption and each write of others is shown to remember the request to exit;
the rule about the leaseholder's slot then carries this over whole runs.  The run in which a failed
review is adopted before its ask is open shows the condition at work.
-/
import Dagq.Supervise.ExitRequests

namespace Dagq

open Lib

/-! ## The turns of a slot -/

section Turns

variable {r r' : RunRecord} {token : Token} {next : Option Phase} {seen : Seen}

theorem not_alive_of_ended (h : r.sessionEnded = true) : r.exitBound = false := by
  have halive : r.sessionAlive = false := by
    unfold RunRecord.sessionEnded at h
    unfold RunRecord.sessionAlive
    cases hw : r.wrapper with
    | none => rfl
    | some w =>
        rw [hw, Option.any_some, Option.isSome_iff_ne_none] at h
        simp [h]
  rw [RunRecord.exitBound, halive]
  rfl

/-- What a turn leaves. -/
def Remembered (r' : RunRecord) (next : Option Phase) : Prop :=
  AsksOnce r' ∧ ∀ p ∈ next, RemembersExit r' p

theorem Remembered.stays {phase : Phase} (hK : AsksOnce r) (hS : RemembersExit r phase) :
    Remembered r (some phase) :=
  ⟨hK, fun p hp => by cases hp; exact hS⟩

theorem Remembered.asks {typed : Bool} {phase : Phase} (hK : AsksOnce r)
    (halive : r.sessionAlive = true) (hquiet : r.run.status ≠ .validating ∧ r.exitBound = false)
    (hS : RemembersExit (r.requestExit typed) phase) :
    Remembered (r.requestExit typed) (some phase) :=
  .stays (hK.requestExit halive hquiet.1 hquiet.2) hS

theorem plain_nil : Plain [] := by simp [Plain]

theorem plain_singleton {e : RunEvent}
    (he : e.body.isWatchKind = false ∧ e.body.isSessionKind = false) : Plain [e] := by
  simpa [Plain] using he

/-- Where nothing was asked, the wait for the session to exit may ask it. -/
theorem Unasked.waits {session : Option SessionRef} {after : AfterExit} (hs : Unasked r session) :
    RemembersExit r (waitForExit session after) :=
  .inr ⟨hs.1, fun hb => (hs.2 hb).1⟩

theorem pollSession_remembers {workspace : String} {exitRequested : Bool} (hK : AsksOnce r)
    (hS : RemembersExit r (.session workspace exitRequested))
    (h : pollSession r token workspace exitRequested seen = some (r', next)) :
    Remembered r' next := by
  unfold pollSession at h
  split at h
  · split_ifs at h with hasked
    · cases h
      exact .stays hK hS
    · obtain ⟨hw, rfl⟩ := turn_some.mp h
      have hw := RunRecord.finishSupervisionLive_ok hw
      -- Nothing was asked in this session, so no exit is bound to it.
      have hquiet : r.exitBound = false := by
        rcases hS with hS | hS
        · exact absurd (by simp [hS]) hasked
        · exact hS.2
      exact .stays (hK.writes hw plain_nil fun _ => hquiet) fun hnone => by cases hnone
  · obtain ⟨hw, rfl⟩ := turn_some.mp h
    obtain ⟨hended, hw⟩ := RunRecord.finishSupervision_ok hw
    have hquiet := not_alive_of_ended hended
    have hK' : AsksOnce r' := by
      rcases hw with hw | hw
      · exact hK.writes hw plain_nil fun _ => hquiet
      · exact hK.writes hw plain_nil fun _ => hquiet
    refine .stays hK' ?_
    split
    · exact fun hnone => by cases hnone
    · trivial
  · split_ifs at h with hasked
    · cases h
      exact .stays hK hS
    · cases h
      simp only [Bool.or_eq_true, Bool.not_eq_true', not_or, Bool.not_eq_false] at hasked
      exact .asks hK hasked.2 (hS.resolve_left hasked.1) (.inl rfl)
  · cases h
    exact .stays hK hS

/-- The workspace of a session is closed. -/
theorem closeWorkspace_eases {session : SessionRef} {now : Seconds} (hK : AsksOnce r)
    (h : r.closeWorkspace token session now = some r') : AsksOnce r' := by
  rcases RunRecord.closeWorkspace_ok h with hw | ⟨workspace, hw⟩
  · exact hK.writes hw plain_nil hK.validating
  · exact hK.writes hw (plain_singleton ⟨rfl, rfl⟩) hK.validating

theorem pollExit_remembers {watch : ExitWatch} (hK : AsksOnce r)
    (hS : RemembersExit r (.exiting watch)) (h : pollExit r token watch seen = some (r', next)) :
    Remembered r' next := by
  unfold pollExit at h
  split at h
  · split_ifs at h
    · cases h
      exact .stays hK trivial
    · cases h
      exact .stays hK hS
  · split_ifs at h with hasked
    · cases h
      exact .stays hK hS
    · cases h
      simp only [Bool.or_eq_true, Bool.not_eq_true', not_or, Bool.not_eq_false] at hasked
      -- Not asked by this watch nor by the session: asked now for the first time.
      obtain ⟨⟨hrequested, hsession⟩, halive⟩ := hasked
      obtain ⟨hv, hb⟩ := hS.resolve_left hrequested
      refine .asks hK halive ⟨hv, Bool.eq_false_iff.mpr fun hb' => hsession ?_⟩ (.inl rfl)
      rw [hb hb']
      rfl
  · split at h
    · split_ifs at h
      · obtain ⟨hw, rfl⟩ := turn_some.mp h
        exact .stays (closeWorkspace_eases hK hw) trivial
      · cases h
        exact .stays hK hS
    · cases h
      exact .stays hK hS
  · cases h
    exact .stays hK hS

/-- The end of a resume leaves the session as it is: gone, or not asked. -/
theorem finishResume_remembers {status : Option RunStatus} {session : SessionRef} {keepLease : Bool}
    (hK : AsksOnce r) (hv : status.getD r.run.status = .validating → r.exitBound = false)
    (h : r.finishResume token status session keepLease = some r')
    (hlast : r.exitBound = true → r'.sessionOf = none) : AsksOnce r' := by
  have hw := RunRecord.finishResume_ok h
  generalize he : ({ body := .notice (.resumeFinished (status.getD .needsSession))
                     session := some session } : RunEvent) = e at hw
  have hlog : exitsAsked r'.log = exitsAsked r.log := by
    rw [hw.log_eq, ← he]
    rfl
  -- The end of a resume writes neither the wrapper nor a request.
  have hbound : r'.exitBound = r.exitBound := by
    unfold RunRecord.exitBound RunRecord.sessionAlive
    rw [hw.wrapper_eq, hlog]
  have hanchor : r'.fromAnchor = r.fromAnchor :=
    fromAnchor_of_append hw.log_eq (by simp [← he, EventBody.movesReview])
  constructor
  · intro n hn
    obtain ⟨hle, htyped⟩ := hK.once n (hlog ▸ hn)
    refine ⟨hle, le_trans hw.typed_le ?_⟩
    simpa [← he, EventBody.isExitRequest] using htyped
  · intro hnone
    rw [hlog]
    exact hK.wrapped (hw.wrapper_eq ▸ hnone)
  · intro hs
    rw [hbound]
    exact hv (hw.status_eq ▸ hs)
  · intro hb hs
    exact absurd (hlast (hbound ▸ hb)) hs
  · intro anchor older ha
    exact hK.judged anchor older (hanchor ▸ ha)

/-- A resume that does not hand its session to validation leaves none open. -/
theorem sessionOf_of_finishResume {status : Option RunStatus} {session : SessionRef}
    {keepLease : Bool} (h : r.finishResume token status session keepLease = some r')
    (hs : status ≠ some .validating) : r'.sessionOf = none := by
  have hlog := (RunRecord.finishResume_ok h).log_eq
  have hlast : r'.lastResume = some { body := .notice (.resumeFinished (status.getD .needsSession))
                                      session := some session } := by
    unfold RunRecord.lastResume
    rw [hlog]
    rfl
  unfold RunRecord.sessionOf
  rw [hlast]
  cases status with
  | none => rfl
  | some status => cases status <;> first | rfl | exact absurd rfl hs

theorem pollResume_remembers {watch : ResumeWatch} (hK : AsksOnce r)
    (hS : RemembersExit r (.resume watch)) (h : pollResume r token watch seen = some (r', next)) :
    Remembered r' next := by
  unfold pollResume at h
  split at h
  · split_ifs at h with hasked
    · cases h
      exact .stays hK hS
    · cases h
      simp only [Bool.or_eq_true, Bool.not_eq_true', not_or, Bool.not_eq_false] at hasked
      exact .asks hK hasked.2 (hS.resolve_left hasked.1) (.inl rfl)
  · split_ifs at h with hends
    · unfold finishResumedSession at h
      split at h
      · split_ifs at h
        · obtain ⟨hw, rfl⟩ := turn_some.mp h
          refine .stays (finishResume_remembers hK ?_ hw fun _ =>
            sessionOf_of_finishResume hw (by simp)) trivial
          exact hK.validating
        · obtain ⟨hw, rfl⟩ := turn_some.mp h
          -- The session ended, or was not asked: validation may find it alive.
          have hquiet : r.exitBound = false := by
            simp only [ResumeWatch.ends, Bool.or_eq_true, Bool.and_eq_true, Bool.not_eq_true',
              decide_eq_true_eq] at hends
            rcases hends with (hended | ⟨⟨⟨_, hasked⟩, _⟩, _⟩) | ⟨hres, _⟩
            · exact not_alive_of_ended hended
            · rcases hS with hS | hS
              · rw [hasked] at hS
                cases hS
              · exact hS.2
            · cases hres
          refine .stays (finishResume_remembers hK (fun _ => hquiet) hw fun hb => ?_) fun hnone => ?_
          · rw [hquiet] at hb
            cases hb
          · cases hnone
      all_goals
        have hw := (turn_some.mp h).1
        obtain rfl := (turn_some.mp h).2
        refine ⟨finishResume_remembers hK ?_ hw fun _ => sessionOf_of_finishResume hw (by simp),
          by simp⟩
        first
          | exact hK.validating
          | exact fun hs => by cases hs
    · cases h
      exact .stays hK hS
  · cases h
    exact .stays hK hS

theorem openLandingAsk_asksOnce {askId : AskId} (hK : AsksOnce r)
    (h : r.openLandingAsk askId = some r') : AsksOnce r' := by
  obtain ⟨e, he, hw⟩ := RunRecord.openLandingAsk_ok h
  exact hK.writes hw (plain_singleton (by rw [he]; exact ⟨rfl, rfl⟩)) hK.validating

theorem afterExit_remembers {session : Option SessionRef} {after : AfterExit} (hK : AsksOnce r)
    (h : afterExit r token session after seen = some (r', next)) : Remembered r' next := by
  unfold afterExit at h
  split at h
  · split at h
    · obtain ⟨hw, rfl⟩ := turn_some.mp h
      exact .stays (closeWorkspace_eases hK hw) trivial
    · cases h
      exact .stays hK trivial
  · split_ifs at h
    · cases h
      exact .stays hK trivial
    · split at h <;> cases h <;> exact .stays hK trivial
  · split at h
    · obtain ⟨hw, rfl⟩ := turn_some.mp h
      exact .stays (openLandingAsk_asksOnce hK hw) trivial
    · obtain ⟨hw, rfl⟩ := turn_some.mp h
      exact .stays (openLandingAsk_asksOnce hK hw) trivial
    · cases h
      exact .stays hK trivial
    · cases h
      exact .stays hK trivial
  · cases h
    exact .stays hK trivial

/-- The end of a validation: the run was asked nothing, so the anchor is free to come. -/
theorem AsksOnce.validates {es : List RunEvent} {e : RunEvent} {status : RunStatus}
    (hK : AsksOnce r) (hb : r.exitBound = false) (hw : r.Writes r' (es ++ [e]) status)
    (he : e.body.movesReview = true ∧ e.body.isExitRequest = false ∧ e.body.followsVerdict = false)
    (hes : Plain es) (hstatus : status ≠ .validating) :
    AsksOnce r' ∧ r'.exitBound = false := by
  obtain ⟨hmoves, hexit, hfollows⟩ := he
  -- In two steps: the run moves and the event anchors, then the plain events follow.
  let moved : RunRecord := { r with run := r'.run }
  have hmoved : r.Writes moved [] status :=
    ⟨rfl, rfl, .inl rfl, hw.status_eq, hw.workspace_eq, hw.closed_of_closed, Nat.le_refl _⟩
  have hb₁ : moved.exitBound = false := (exitBound_of_plain hmoved plain_nil).trans hb
  have hK₁ : AsksOnce (moved.record e) := by
    refine (hK.writes hmoved plain_nil fun hs => absurd hs hstatus).record hmoves
      (show Unasked moved none from ⟨?_, fun hb => ?_⟩) fun hf => ?_
    · rw [hmoved.status_eq]
      exact hstatus
    · rw [hb₁] at hb
      cases hb
    · rw [hfollows] at hf
      cases hf
  have hlast : (moved.record e).Writes r' es status := by
    refine ⟨?_, hw.wrapper_eq, hw.lease_eq, hw.status_eq, rfl, id, ?_⟩
    · rw [hw.log_eq, List.append_assoc]
      rfl
    · have htyped := hw.typed_le
      rw [List.countP_append, List.countP_singleton, hexit] at htyped
      exact htyped
  refine ⟨hK₁.writes hlast hes fun hs => absurd hs hstatus, ?_⟩
  rw [exitBound_of_plain hlast hes, exitBound_record (anchor_kinds hmoves).1]
  exact hb₁

theorem pollValidation_remembers {session : Option SessionRef} (hK : AsksOnce r)
    (hS : RemembersExit r (.validating session))
    (h : pollValidation r token session seen = some (r', next)) : Remembered r' next := by
  unfold pollValidation at h
  split at h
  · rename_i validation
    obtain ⟨hw, rfl⟩ := turn_some.mp h
    obtain ⟨hfrom, es, status, hw, hes, hstatus⟩ := RunRecord.finishValidation_ok hw
    -- While it validates, no exit is bound to the session.
    have hquiet : r.exitBound = false := hK.validating hfrom
    have hplain : Plain es := by
      rcases hes with rfl | ⟨checks, rfl⟩ | ⟨paths, rfl⟩
      · exact plain_nil
      · exact plain_singleton ⟨rfl, rfl⟩
      · exact plain_singleton ⟨rfl, rfl⟩
    obtain ⟨hK', hquiet'⟩ := hK.validates hquiet hw ⟨rfl, rfl, rfl⟩ hplain hstatus
    have hunasked : Unasked r' session :=
      ⟨hw.status_eq ▸ hstatus, fun hb => by rw [hquiet'] at hb; cases hb⟩
    refine .stays hK' ?_
    unfold afterValidation
    split
    · split_ifs
      · exact hunasked.waits
      · exact hunasked.waits
      · exact hunasked
    · exact hunasked.waits
    · exact hunasked.waits
  · cases h
    exact .stays hK hS

/-- A step of the review, after which the slot knows the session as before. -/
theorem Remembered.records {e : RunEvent} {session : Option SessionRef} {phase : Phase}
    (hK : AsksOnce r) (hs : Unasked r session) (he : e.body.movesReview = true)
    (hverdict : e.body.followsVerdict = true → r.hasVerdict = true)
    (hS : Unasked (r.record e) session → RemembersExit (r.record e) phase) :
    Remembered (r.record e) (some phase) :=
  .stays (hK.record he hs hverdict) (hS (hs.record he))

theorem beginReview_remembers {session : Option SessionRef} {retried : Bool} (hK : AsksOnce r)
    (hs : Unasked r session) :
    Remembered (beginReview r session retried seen).1 (some (beginReview r session retried seen).2) := by
  unfold beginReview
  split
  · refine .records hK hs rfl (fun hf => by cases hf) fun hs' => ?_
    dsimp only
    split
    · exact hs'
    · exact hs'.waits
  · exact .stays hK hs

theorem pollReview_remembers {session : Option SessionRef} {retried : Bool} (hK : AsksOnce r)
    (hs : Unasked r session) :
    Remembered (pollReview r session retried seen).1 (some (pollReview r session retried seen).2) := by
  unfold pollReview
  split
  · rename_i verdict
    refine .records hK hs rfl (fun hf => by cases hf) fun hs' => ?_
    cases verdict with
    | pass => exact ⟨hs', rfl⟩
    | concern => exact hs'.waits
    | revise => exact ⟨hs', rfl⟩
  · refine .stays hK ?_
    dsimp only
    split
    · exact hs.waits
    · exact hs
  · exact .stays hK hs.waits
  · exact .stays hK hs

theorem requestRevise_remembers {session : Option SessionRef} (hK : AsksOnce r)
    (hs : Unasked r session) (hverdict : r.hasVerdict = true) :
    Remembered (requestRevise r session).1 (some (requestRevise r session).2) := by
  unfold requestRevise
  split
  · exact .stays hK hs.waits
  · split
    · split
      · refine .records hK hs rfl (fun hf => by cases hf) fun hs' => ?_
        exact ⟨hs', hasEvent_of_cons (r := r) rfl hverdict⟩
      · exact .stays hK hs.waits
    · exact .stays hK hs.waits

theorem conflictPrecheck_remembers {session : Option SessionRef} {phase : Phase}
    {requested asked unsent : Bool} (hK : AsksOnce r) (hs : Unasked r session)
    (hverdict : r.hasVerdict = true)
    (hS : ∀ r' : RunRecord, Unasked r' session → r'.hasVerdict = true → RemembersExit r' phase) :
    Remembered (conflictPrecheck r requested asked unsent) (some phase) :=
  .records hK hs rfl (fun _ => hverdict) fun hs' =>
    hS _ hs' (hasEvent_of_cons (r := r) rfl hverdict)

theorem requestRebase_remembers {session : Option SessionRef} (hK : AsksOnce r)
    (hs : Unasked r session) (hverdict : r.hasVerdict = true) :
    Remembered (requestRebase r session).1 (some (requestRebase r session).2) := by
  unfold requestRebase
  split
  · exact conflictPrecheck_remembers hK hs hverdict fun _ hs' _ => hs'.waits
  · split
    · split
      · exact conflictPrecheck_remembers hK hs hverdict fun _ hs' hv => ⟨hs', hv⟩
      · exact conflictPrecheck_remembers hK hs hverdict fun _ hs' _ => hs'.waits
    · exact conflictPrecheck_remembers hK hs hverdict fun _ hs' _ => hs'.waits

theorem precheck_remembers {session : Option SessionRef} (hK : AsksOnce r)
    (hs : Unasked r session) (hverdict : r.hasVerdict = true) :
    Remembered (precheck r session seen).1 (some (precheck r session seen).2) := by
  unfold precheck
  split
  · exact .stays hK hs.waits
  · exact requestRebase_remembers hK hs hverdict
  · exact .stays hK ⟨hs, hverdict⟩

theorem typeRequest_remembers {live : SessionRef} {fix : Fix} (hK : AsksOnce r)
    (hs : Unasked r (some live)) (hverdict : r.hasVerdict = true) :
    Remembered (typeRequest r live fix seen).1 (some (typeRequest r live fix seen).2) := by
  unfold typeRequest
  split
  · exact .stays hK hs
  · exact .records hK hs rfl (fun _ => hverdict) fun hs' => hs'.waits
  · exact conflictPrecheck_remembers hK hs hverdict fun _ hs' _ => hs'.waits
  · exact .stays hK ⟨hs, hverdict⟩

theorem pollRevise_remembers {live : SessionRef} {fix : Fix} (hK : AsksOnce r)
    (hs : Unasked r (some live)) :
    Remembered (pollRevise r live fix seen).1 (some (pollRevise r live fix seen).2) := by
  unfold pollRevise
  split
  · split
    · cases fix
      all_goals exact .records hK hs rfl (fun hf => by cases hf) fun hs' => hs'
    · exact .stays hK hs
  · exact .stays hK hs.waits
  · exact .stays hK hs

theorem pollSlot_remembers (hK : AsksOnce r) (hlease : r.lease = some token)
    (h : pollSlot r token seen = some (r', next)) : Remembered r' next := by
  unfold pollSlot at h
  split at h
  · obtain ⟨hw, rfl⟩ := turn_some.mp h
    obtain ⟨previous, hw⟩ := beginIntegration_writes hlease hw
    exact .stays (hK.writes hw (plain_singleton ⟨rfl, rfl⟩) fun hs => by cases hs) trivial
  · obtain ⟨hw, rfl⟩ := turn_some.mp h
    exact ⟨hK.writes (RunRecord.parkRechecked_ok hw).2 (plain_singleton ⟨rfl, rfl⟩)
      (fun hs => by cases hs), by simp⟩
  · obtain ⟨hw, rfl⟩ := turn_some.mp h
    exact ⟨hK.writes (RunRecord.releaseLease_ok hw) plain_nil hK.validating, by simp⟩
  · cases h
    exact .stays hK trivial

theorem pollLanding_remembers (hK : AsksOnce r)
    (h : pollLanding r token seen = some (r', next)) : Remembered r' next := by
  unfold pollLanding at h
  split at h
  · rename_i landed
    obtain ⟨hw, rfl⟩ := turn_some.mp h
    obtain ⟨_, status, hstatus, hw⟩ := RunRecord.leaveIntegration_ok hw
    refine ⟨hK.writes hw (plain_singleton ?_) fun hs => absurd hs hstatus, by simp⟩
    cases landed <;> exact ⟨rfl, rfl⟩
  · cases h
    exact ⟨hK, by simp⟩
  · cases h
    exact .stays hK trivial

theorem pollRecovery_remembers (hK : AsksOnce r)
    (h : pollRecovery r token seen = some (r', next)) : Remembered r' next := by
  unfold pollRecovery at h
  split at h
  · obtain ⟨hw, rfl⟩ := turn_some.mp h
    obtain ⟨_, status, hstatus, hw⟩ := RunRecord.finishTriage_ok hw
    exact .stays (hK.writes hw (plain_singleton ⟨rfl, rfl⟩) fun hs => absurd hs hstatus) trivial
  all_goals
    cases h
    exact .stays hK trivial

/-! ### Adoption -/

theorem hasEvent_of_exitsAsked {log : List RunEvent} {n : Nat} (h : exitsAsked log = some (n + 1)) :
    log.any (fun e => e.body.isExitRequest) = true := by
  induction log with
  | nil => cases h
  | cons e older ih =>
      rw [exitsAsked] at h
      split at h
      case h_5 hbody => rw [List.any_cons, hbody]; rfl
      case h_6 => rw [List.any_cons, ih h, Bool.or_true]
      all_goals cases h

theorem hasEvent_of_exitBound (h : r.exitBound = true) :
    r.hasEvent EventBody.isExitRequest = true := by
  unfold RunRecord.exitBound at h
  obtain ⟨_, hasked⟩ := Bool.and_eq_true_iff.mp h
  cases hn : exitsAsked r.log with
  | none =>
      rw [hn] at hasked
      cases hasked
  | some n =>
      obtain ⟨m, rfl⟩ := Nat.exists_eq_succ_of_ne_zero (by simpa [hn] using hasked)
      exact hasEvent_of_exitsAsked hn

/-- An adopted slot that waits for the exit finds the request after the anchor. -/
theorem exits_remembers {after : AfterExit} (hK : AsksOnce r) (hv : r.run.status ≠ .validating)
    (hr : r'.exitBound = r.exitBound) (hstatus : r'.run.status = r.run.status) :
    RemembersExit r' (r.exits after) := by
  by_cases hasked : r.after EventBody.isExitRequest = true
  · exact .inl hasked
  · refine .inr ⟨hstatus ▸ hv, fun hb => ?_⟩
    by_contra hsome
    exact hasked (hK.anchored (hr ▸ hb) hsome)

/-- The last verdict before an anchor that follows one. -/
theorem passedBefore_of_judged {anchor : RunEvent} {older : List RunEvent} (hK : AsksOnce r)
    (ha : r.fromAnchor = anchor :: older) (hf : anchor.body.followsVerdict = true) :
    r.passedBefore.isSome = true := by
  unfold RunRecord.passedBefore
  rw [ha, List.tail_cons, List.findSome?_isSome_iff]
  exact List.any_eq_true.mp (hK.judged anchor older ha hf)

theorem mem_of_fromAnchor {anchor : RunEvent} {older : List RunEvent}
    (ha : r.fromAnchor = anchor :: older) : anchor ∈ r.log := by
  have hsub : (anchor :: older).Sublist r.log := ha ▸ List.dropWhile_sublist _
  exact hsub.subset List.mem_cons_self

theorem hasVerdict_of_passedBefore (h : r.passedBefore.isSome = true) : r.hasVerdict = true := by
  unfold RunRecord.passedBefore at h
  obtain ⟨e, he, hv⟩ := List.findSome?_isSome_iff.mp h
  exact List.any_eq_true.mpr ⟨e, (List.dropWhile_sublist _).subset (List.mem_of_mem_tail he), hv⟩

/-- Where a request to exit is read back, a session whose review is due was not asked to exit. -/
theorem AsksOnce.unasked_of_due (hK : AsksOnce r) (hwaiting : r.run.status = .awaitingIntegration)
    (hread : r.restoresExit = true) (hdue : r.ReviewDue) : Unasked r r.sessionOf := by
  refine ⟨by rw [hwaiting]; simp, fun hb => ?_⟩
  have hnone : r.sessionOf = none := by
    by_contra hsome
    unfold RunRecord.restoresExit at hread
    unfold RunRecord.ReviewDue at hdue
    simp only [hb, hwaiting, Option.isNone_eq_false_iff.mpr (Option.isSome_iff_ne_none.mpr hsome), ne_eq,
      not_true, decide_false, Bool.not_true, Bool.false_or] at hread
    cases ha : r.fromAnchor with
    | nil =>
        rw [ha] at hread
        cases hread
    | cons anchor older =>
        have hjudged (hf : anchor.body.followsVerdict = true) : r.passedBefore.isSome = true :=
          passedBefore_of_judged hK ha hf
        -- No anchor reads the request back and leaves the review due.
        simp only [ha] at hread hdue
        split at hread <;> simp_all [EventBody.followsVerdict]
  exact ⟨hnone, hnone⟩

theorem hasVerdict_of_passed (h : r.ReviewPassed) : r.hasVerdict = true := by
  cases h with
  | verdict found body =>
      exact List.any_eq_true.mpr ⟨_, mem_of_fromAnchor found, by rw [body]; rfl⟩
  | precheck _ _ judged => exact hasVerdict_of_passedBefore judged

/-- A waiting run whose request to exit is read back gets a slot that remembers it. -/
theorem adoptReview_remembers (hK : AsksOnce r) (hwaiting : r.run.status = .awaitingIntegration)
    (hread : r.restoresExit = true) :
    Remembered r.adoptReview.1 (some r.adoptReview.2) := by
  have hv : r.run.status ≠ .validating := by rw [hwaiting]; simp
  have hadopted := adoptReview_adopted r
  generalize r.adoptReview = adopted at hadopted ⊢
  cases hadopted with
  | review due => exact .stays hK (hK.unasked_of_due hwaiting hread due)
  | fix session due =>
      refine .stays hK ?_
      have hunasked := hK.unasked_of_due hwaiting hread due
      rw [session] at hunasked
      exact hunasked
  | passed passed unasked =>
      -- A verdict not followed by a request is prechecked again.
      have hnone (hb : r.exitBound = true) : r.sessionOf = none := by
        by_contra hsome
        rw [hK.anchored hb hsome] at unasked
        cases unasked
      exact .stays hK ⟨⟨hv, fun hb => ⟨hnone hb, hnone hb⟩⟩, hasVerdict_of_passed passed⟩
  | exits => exact .stays hK (exits_remembers hK hv rfl rfl)
  | failed =>
      exact .stays (hK.writes RunRecord.record_writes (plain_singleton ⟨rfl, rfl⟩) hK.validating)
        (exits_remembers hK hv rfl rfl)

theorem rebuilt_remembers {phase : Phase} (hK : AsksOnce r) (hread : r.restoresExit = true)
    (h : r.rebuilt = some (r', phase)) : Remembered r' (some phase) := by
  unfold RunRecord.rebuilt at h
  split at h
  · rename_i hwaiting
    rw [Option.some.injEq] at h
    have hkept := adoptReview_remembers hK hwaiting hread
    rw [h] at hkept
    exact hkept
  · cases h
    exact .stays hK id
  · rename_i hnot
    obtain ⟨workspace, _, h⟩ := Option.map_eq_some_iff.mp h
    cases h
    refine .stays hK ?_
    by_cases hasked : r.hasEvent EventBody.isExitRequest = true
    · exact .inl hasked
    · refine .inr ⟨hnot, Bool.eq_false_iff.mpr fun hb => hasked ?_⟩
      exact hasEvent_of_exitBound hb

theorem Remembered.of_goesOn {phase : Phase} {turn : Option Turn} (hK : AsksOnce r)
    (hS : RemembersExit r phase) (ht : seen = .goesOn → turn = some (r', next) → Remembered r' next)
    (h : goesOn r phase seen turn = some (r', next)) : Remembered r' next := by
  rcases goesOn_cases h with ⟨hseen, h⟩ | ⟨rfl, rfl⟩
  · exact ht hseen h
  · exact .stays hK hS

theorem Remembered.of_moves {turn : RunRecord × Phase} (ht : Remembered turn.1 (some turn.2))
    (h : moves turn = some (r', next)) : Remembered r' next := by
  obtain ⟨rfl, rfl⟩ := moves_some h
  exact ht

/-- A turn of the leaseholder remembers what it asked. -/
theorem takeTurn_remembers {phase : Phase} (hK : AsksOnce r) (hS : RemembersExit r phase)
    (hlease : r.lease = some token)
    (hread : phase = .taken → seen = .goesOn → r.restoresExit = true)
    (h : takeTurn r token phase seen = some (r', next)) : Remembered r' next := by
  cases phase with
  | session workspace exitRequested => exact pollSession_remembers hK hS h
  | validating session => exact pollValidation_remembers hK hS h
  | review session retried => exact .of_moves (pollReview_remembers hK hS) h
  | revise live fix => exact .of_moves (pollRevise_remembers hK hS) h
  | exiting watch => exact pollExit_remembers hK hS h
  | resume watch => exact pollResume_remembers hK hS h
  | awaitingSlot => exact pollSlot_remembers hK hlease h
  | landing => exact pollLanding_remembers hK h
  | recovery => exact pollRecovery_remembers hK h
  | taken =>
      refine .of_goesOn hK hS (fun hseen ht => ?_) h
      obtain ⟨⟨r₁, phase⟩, hbuilt, ht⟩ := Option.bind_eq_some_iff.mp ht
      exact .of_moves (rebuilt_remembers hK (hread rfl hseen) hbuilt) ht
  | reviewing session retried => exact .of_moves (beginReview_remembers hK hS) h
  | revising session =>
      exact .of_goesOn hK hS (fun _ => .of_moves (requestRevise_remembers hK hS.1 hS.2)) h
  | passed session => exact .of_moves (precheck_remembers hK hS.1 hS.2) h
  | asking live fix => exact .of_moves (typeRequest_remembers hK hS.1 hS.2) h
  | rewritten live =>
      refine .of_goesOn hK hS (fun _ ht => ?_) h
      obtain ⟨hw, rfl⟩ := turn_some.mp ht
      -- The live session is validated again, and was asked nothing.
      have hquiet : r.exitBound = false := Bool.eq_false_iff.mpr fun hb => by
        cases (hS.2 hb).1
      exact .stays (hK.writes (RunRecord.restartValidation_ok hw) plain_nil fun _ => hquiet)
        fun hnone => by cases hnone
  | gone session after => exact afterExit_remembers hK h
  | failing =>
      have hK' : AsksOnce (r.runtime .reviewFailed) :=
        hK.writes RunRecord.record_writes (plain_singleton ⟨rfl, rfl⟩) hK.validating
      have hkept : Remembered (r.runtime .reviewFailed) (some .leaving) := .stays hK' trivial
      exact .of_goesOn hK hS (fun _ => .of_moves hkept) h
  | leaving =>
      refine .of_goesOn hK hS (fun _ ht => ?_) h
      obtain ⟨hw, rfl⟩ := turn_some.mp ht
      exact ⟨hK.writes (RunRecord.releaseLease_ok hw) plain_nil hK.validating, by simp⟩

/-! ### Taking the run, and the writes of others -/

theorem AsksOnce.leaseTo (hK : AsksOnce r) : AsksOnce (r.leaseTo token) :=
  ⟨hK.once, hK.wrapped, hK.validating, hK.anchored, hK.judged⟩

/-- A new session, or none: nothing that was asked of the last one counts. -/
theorem AsksOnce.starts_over (hK : AsksOnce r) (hlog : exitsAsked r'.log = none)
    (hanchor : r'.fromAnchor = r.fromAnchor) : AsksOnce r' ∧ r'.exitBound = false := by
  have hb : r'.exitBound = false := by
    rw [RunRecord.exitBound, hlog, Option.any_none, Bool.and_false]
  refine ⟨⟨?_, fun _ => hlog, fun _ => hb, ?_, ?_⟩, hb⟩
  · intro n hn
    rw [hlog] at hn
    cases hn
  · intro hb'
    rw [hb] at hb'
    cases hb'
  · intro anchor older ha
    exact hK.judged anchor older (hanchor ▸ ha)

theorem beginResume_remembers {main : CommitSha} (hK : AsksOnce r)
    (h : r.beginResume token main = some r') :
    AsksOnce r' ∧ r'.run.status ≠ .validating ∧ r'.exitBound = false := by
  simp only [RunRecord.beginResume, guard, Option.bind_eq_bind, Option.bind_eq_some_iff,
    Option.pure_def, Option.some.injEq] at h
  obtain ⟨_, hguard, hr⟩ := h
  have hresumable : (TaskRun.checkResumable r.run).isOk = true := by
    split at hguard
    · rename_i hc
      exact hc.1
    · cases hguard
  have hlog : r'.log = .bare (.notice (.resumeStarted ((ResumeCount.of r.bodies).total + 1)
      (!(History.of r.bodies).conflictOnly) main)) :: r.log := by
    rw [← hr]
    rfl
  obtain ⟨hK', hb⟩ := hK.starts_over (by rw [hlog]; rfl) (fromAnchor_of_cons hlog rfl)
  refine ⟨hK', fun hs => ?_, hb⟩
  have hs : r.run.status = .validating := by rwa [← hr] at hs
  simp [TaskRun.checkResumable, TaskRun.requireStatus, require, hs, Except.isOk,
    Except.toBool] at hresumable

theorem skipResume_remembers {head main : CommitSha} (hK : AsksOnce r)
    (h : r.skipResume token head main = some r') : AsksOnce r' ∧ r'.sessionOf = none := by
  simp only [RunRecord.skipResume, guard, Option.bind_eq_bind, Option.bind_eq_some_iff,
    RunRecord.apply_some, Option.pure_def, Option.some.injEq] at h
  obtain ⟨_, _, _, ⟨run, hrun, rfl⟩, rfl⟩ := h
  exact ⟨(hK.starts_over rfl (fromAnchor_of_cons (r := r) rfl rfl)).1, rfl⟩

theorem opens_remembers {opening : Opening} {phase : Phase} (hK : AsksOnce r)
    (h : opening.take token r = some (r', phase)) : AsksOnce r' ∧ RemembersExit r' phase := by
  -- An opening takes the lease; only a resume ended at once goes on to validate.
  cases opening with
  | adopt previous =>
      simp only [Opening.take, RunRecord.adopt, guard, Option.bind_eq_bind,
        Option.bind_eq_some_iff, RunRecord.under_some, Option.pure_def, Option.some.injEq,
        Prod.mk.injEq] at h
      obtain ⟨_, _, _, ⟨_, ⟨_, rfl⟩, _, _, rfl⟩, rfl, rfl⟩ := h
      exact ⟨hK.leaseTo, trivial⟩
  | beginResume main workspace =>
      simp only [Opening.take, Option.bind_eq_bind, Option.bind_eq_some_iff, Option.pure_def,
        Option.some.injEq, Prod.mk.injEq] at h
      obtain ⟨_, hbegin, rfl, rfl⟩ := h
      obtain ⟨hK', hquiet⟩ := beginResume_remembers hK hbegin
      exact ⟨hK', .inr hquiet⟩
  | skipResume head main =>
      simp only [Opening.take, Option.bind_eq_bind, Option.bind_eq_some_iff, Option.pure_def,
        Option.some.injEq, Prod.mk.injEq] at h
      obtain ⟨_, hskip, rfl, rfl⟩ := h
      obtain ⟨hK', hnone⟩ := skipResume_remembers hK hskip
      refine ⟨hK', ?_⟩
      split
      · exact fun _ => hnone
      · trivial
  | land main =>
      simp only [Opening.take, guard, Option.bind_eq_bind, Option.bind_eq_some_iff,
        Option.pure_def, Option.some.injEq, Prod.mk.injEq] at h
      obtain ⟨_, _, _, hbegin, rfl, rfl⟩ := h
      obtain ⟨_, _, previous, hw⟩ := RunRecord.beginIntegration_ok hbegin
      have hK₀ : AsksOnce r.unleased :=
        ⟨hK.once, hK.wrapped, hK.validating, hK.anchored, hK.judged⟩
      have hK' := hK₀.writes hw (plain_singleton ⟨rfl, rfl⟩) fun hs => by cases hs
      exact ⟨⟨hK'.once, hK'.wrapped, hK'.validating, hK'.anchored, hK'.judged⟩, trivial⟩
  | beginTriage =>
      simp only [Opening.take, RunRecord.beginTriage, guard, Option.bind_eq_bind,
        Option.bind_eq_some_iff, Option.pure_def, Option.some.injEq, Prod.mk.injEq] at h
      obtain ⟨_, ⟨_, _, rfl⟩, rfl, rfl⟩ := h
      exact ⟨hK.leaseTo, trivial⟩

/-- A write of others counts no request, and only starts or ends a session. -/
theorem stirs_counts {es : List RunEvent} (hK : AsksOnce r) (h : Stirs r r' es) :
    (∀ n, exitsAsked r'.log = some n → n ≤ 1 ∧ r'.typed ≤ n) ∧
      (r'.wrapper = none → exitsAsked r'.log = none) ∧
      (r'.exitBound = true → r.exitBound = true) := by
  have hlog := h.log_eq
  have hplain (hsession : ∀ e ∈ es, e.body.isSessionKind = false) :
      exitsAsked r'.log = exitsAsked r.log := by
    rw [hlog]
    exact exitsAsked_of_plain fun e he => ⟨h.others e he, hsession e he⟩
  have honce (hsame : exitsAsked r'.log = exitsAsked r.log) :
      ∀ n, exitsAsked r'.log = some n → n ≤ 1 ∧ r'.typed ≤ n := fun n hn =>
    ⟨(hK.once n (hsame ▸ hn)).1, h.typed_le.trans (hK.once n (hsame ▸ hn)).2⟩
  have hbound (hsame : exitsAsked r'.log = exitsAsked r.log)
      (halive : r'.sessionAlive = true → r.sessionAlive = true) :
      r'.exitBound = true → r.exitBound = true := by
    unfold RunRecord.exitBound
    rw [hsame, Bool.and_eq_true, Bool.and_eq_true]
    exact And.imp_left halive
  -- Either the session is as it was, or it registers, starts, exits or dies.
  rcases h.wrapper with ⟨hwrapper, hsession⟩ | hmove
  · have hsame := hplain hsession
    refine ⟨honce hsame, fun hnone => ?_, hbound hsame ?_⟩
    · rw [hsame]
      exact hK.wrapped (hwrapper ▸ hnone)
    · unfold RunRecord.sessionAlive
      rw [hwrapper]
      exact id
  · cases hmove with
    | registers hnone =>
        have hsame := hplain (by simp)
        have hzero : exitsAsked r'.log = none := hsame.trans (hK.wrapped hnone)
        refine ⟨honce hsame, fun _ => hzero, fun hb => ?_⟩
        rw [RunRecord.exitBound, hzero, Option.any_none, Bool.and_false] at hb
        cases hb
    | starts pid halive htyped =>
        have hzero : exitsAsked r'.log = some 0 := by
          rw [hlog]
          rfl
        refine ⟨fun n hn => ?_, fun hnone => ?_, fun hb => ?_⟩
        · rw [hzero, Option.some.injEq] at hn
          omega
        · rw [RunRecord.sessionAlive, hnone] at halive
          cases halive
        · rw [RunRecord.exitBound, hzero, Option.any_some, Bool.and_eq_true] at hb
          cases hb.2
    | exits code =>
        have hnone : exitsAsked r'.log = none := by
          rw [hlog]
          rfl
        refine ⟨fun n hn => ?_, fun _ => hnone, fun hb => ?_⟩
        · rw [hnone] at hn
          cases hn
        · rw [RunRecord.exitBound, hnone, Option.any_none, Bool.and_false] at hb
          cases hb
    | dies hwrapper halive =>
        have hsame := hplain (by simp)
        exact ⟨honce hsame, fun hnone => hsame.trans (hK.wrapped (hwrapper hnone)),
          hbound hsame halive⟩

theorem stirs_remembers {es : List RunEvent} (hK : AsksOnce r) (h : Stirs r r' es) :
    AsksOnce r' ∧ ∀ phase, RemembersExit r phase → RemembersExit r' phase := by
  obtain ⟨honce, hwrapped, hbound⟩ := stirs_counts hK h
  have heases : Eases r r' es := ⟨h.log_eq, h.others, hbound, h.workspace_eq, h.closed_of_closed⟩
  exact ⟨hK.eases heases honce hwrapped fun hs => heases.unbound (hK.validating (h.validating hs)),
    fun phase hS => hS.eases heases h.validating⟩

/-- The request to exit is remembered along settled steps that read it back. -/
theorem exit_rule : SlotRule AsksOnce RemembersExit RunRecord.restoresExit RunRecord.keepsExit where
  turn hK hS hlease hread h := takeTurn_remembers hK hS hlease hread h
  opens hK h := opens_remembers hK h
  outside hK h := stirs_remembers hK h
  drops _ hK := hK.writes RunRecord.dropLease_writes plain_nil hK.validating
  ends hK h := by
    refine finishResume_remembers hK ?_ h fun _ => sessionOf_of_finishResume h (by simp)
    exact hK.validating
  taken _ := trivial
  restores {r phase} hK hB := by
    cases phase with
    | resume watch =>
        simp only [RunRecord.keepsExit, Bool.and_eq_true, decide_eq_true_eq, Bool.or_eq_true,
          Bool.not_eq_true'] at hB
        exact hB.2.imp_right fun hb => ⟨hB.1, hb⟩
    | exiting watch =>
        simp only [RunRecord.keepsExit, Bool.and_eq_true, decide_eq_true_eq, Bool.or_eq_true,
          Bool.not_eq_true', Option.isNone_iff_eq_none] at hB
        obtain ⟨hs, (hrequested | hnone) | hb⟩ := hB
        · exact .inl hrequested
        · exact .inr ⟨hs, fun _ => hnone⟩
        · exact .inr ⟨hs, fun hb' => by rw [hb] at hb'; cases hb'⟩
    | _ => cases hB

end Turns

/-! ## Whole runs -/

/-- A settled step at which a request to exit is read back. -/
def Watched.readsExit (w : Watched) (op : WatchOp) : Bool :=
  w.settled op && w.readsBack RunRecord.restoresExit RunRecord.keepsExit op

variable {token : Token} {taskId : TaskId} {baseCommit : CommitSha} {workspace : String}

theorem exit_held_init : Held AsksOnce RemembersExit
    (watching token taskId baseCommit workspace).init where
  tidy := ⟨by simp [watching], by simp [watching]⟩
  record := ⟨fun _ h => (by cases h), fun _ => rfl, fun _ => rfl, fun h => (by cases h),
    fun _ _ h => (by cases h)⟩
  slots slot hslot _ := by
    rw [List.mem_singleton.mp hslot]
    exact .inr ⟨by simp [watching, provisioned], rfl⟩

theorem exit_held_step {w : Watched} {op : WatchOp} (hop : w.readsExit op = true)
    (h : Held AsksOnce RemembersExit w) : Held AsksOnce RemembersExit (w.step op) := by
  obtain ⟨hsettled, hread⟩ := Bool.and_eq_true_iff.mp hop
  exact exit_rule.step hsettled hread h

/-- Along steps that read the request back, the session that runs is never asked to exit, nor the exit
typed to it, a second time. -/
theorem exit_asked_once (token : Token) (taskId : TaskId) (baseCommit : CommitSha)
    (workspace : String) (ops : List WatchOp)
    (hops : (watching token taskId baseCommit workspace).Meets (fun w op => w.readsExit op = true)
      (watching token taskId baseCommit workspace).init ops) :
    ∀ before after, ops = before ++ after → ∀ n,
      exitsAsked ((watching token taskId baseCommit workspace).run before).record.log = some n →
        n ≤ 1 ∧ ((watching token taskId baseCommit workspace).run before).record.typed ≤ n := by
  rintro before after rfl
  have hbefore := ((Machine.meets_append _).mp hops).1
  exact (Machine.invariant_of_meets (fun _ _ => exit_held_step) hbefore exit_held_init).record.once

/-- A supervisor that dies after the request of a passed review: the next one only waits. -/
theorem exit_asked_once_adopted :
    let M := watching 5 0 7 "w"
    let ops := [.outside (.registerWrapper 5), .outside (.registerAgent 1), .turn 0 .idle,
      .turn 0 (.validated { accepted := true, resultCommit := some 9 }), .turn 0 (.started true),
      .turn 0 (.verdict .pass), .turn 0 .merges, .turn 0 (.asksExit true), .crash 5,
      .opens 6 (.adopt 5), .turn 0 .goesOn, .turn 0 (.asksExit true)]
    exitsAsked (M.run ops).record.log = some 1 ∧ (M.run ops).record.typed ≤ 1 := by
  intro M ops
  have hops : M.Meets (fun w op => w.readsExit op = true) M.init ops := by decide +kernel
  have hasked : exitsAsked (M.run ops).record.log = some 1 := by decide +kernel
  clear_value ops
  exact ⟨hasked, (exit_asked_once 5 0 7 "w" ops hops ops [] (List.append_nil ops).symm 1 hasked).2⟩

/-- The request of a failed review is recorded before its ask is open: the supervisor that adopts the
run in between reviews it again, and asks the same session to exit again. -/
theorem exit_asked_twice :
    let run := (watching 5 0 7 "w").run [.outside (.registerWrapper 5), .outside (.registerAgent 1),
      .turn 0 .idle, .turn 0 (.validated { accepted := true, resultCommit := some 9 }),
      .turn 0 (.started true), .turn 0 .reviewFailed, .turn 0 (.asksExit true), .crash 5,
      .opens 6 (.adopt 5), .turn 0 .goesOn, .turn 0 (.started true), .turn 0 (.verdict .concern),
      .turn 0 (.asksExit true)]
    exitsAsked run.record.log = some 2 ∧ run.record.typed = 2 ∧ run.record.sessionAlive = true := by
  decide +kernel

end Dagq
