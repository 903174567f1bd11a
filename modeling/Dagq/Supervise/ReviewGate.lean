/-
# Dagq.Supervise.ReviewGate -- a landing begins only after a passed review or an approval.

Each path to a landing (the slot that watched the review, an adopted one, a resume that skips its
session, a person's answer) decides for itself whether a review is still owed.  The gate is stated on
the events: before every landing on record stands an approval, or a review that passed after the latest
validation.
-/
import Dagq.Supervise.SlotRule
import Mathlib.Data.List.TakeWhile

namespace Dagq

open Lib

/-! ## The gate on record -/

def EventBody.isValidation : EventBody → Bool
  | .milestone (.validationFinished ..) => true
  | _ => false

/-- The verdict of the last review that finished after the latest validation, newest event first. -/
def lastVerdict (log : List RunEvent) : Option ReviewDecision :=
  (log.takeWhile fun e => !e.body.isValidation).findSome? fun e => e.body.verdict?

/-- An approval, or a review that passed. -/
def Cleared (log : List RunEvent) : Prop :=
  (log.any fun e => e.body.isApproval) = true ∨ lastVerdict log = some .pass

instance (log : List RunEvent) : Decidable (Cleared log) :=
  inferInstanceAs (Decidable (_ ∨ _))

/-- Every landing on record began on a cleared run. -/
def LandingsCleared : List RunEvent → Prop
  | [] => True
  | e :: older => (e.body.startsLanding = true → Cleared older) ∧ LandingsCleared older

def EventBody.isPrecheck : EventBody → Bool
  | .runtime (.conflictPrecheck ..) => true
  | _ => false

/-- The landings are cleared, and a conflict precheck is one of a passed head. -/
structure Gated (r : RunRecord) : Prop where
  landed : LandingsCleared r.log
  prechecked : ∀ anchor older, r.fromAnchor = anchor :: older →
    anchor.body.isPrecheck = true → lastVerdict r.log = some .pass

/-- A slot on its way to a landing is cleared for it. -/
def ClearedFor (r : RunRecord) : Phase → Prop
  | .exiting watch => watch.after = .land → Cleared r.log
  | .gone _ after => after = .land → Cleared r.log
  | .awaitingSlot => Cleared r.log
  | .passed _ | .asking _ .conflict => lastVerdict r.log = some .pass
  | _ => True

/-! ## What the events leave of it -/

section Events

variable {r r' : RunRecord} {es : List RunEvent} {older : List RunEvent}

theorem lastVerdict_of_append (hes : ∀ e ∈ es, e.body.movesReview = false) :
    lastVerdict (es ++ older) = lastVerdict older := by
  unfold lastVerdict
  have hkept : ∀ e ∈ es, e.body.isValidation = false ∧ e.body.verdict? = none := by
    intro e he
    have hmoves := hes e he
    revert hmoves
    cases e.body with
    | notice n => exact fun _ => ⟨rfl, rfl⟩
    | milestone m => cases m <;> first | exact fun _ => ⟨rfl, rfl⟩ | exact fun h => by cases h
    | runtime event => cases event <;> first | exact fun _ => ⟨rfl, rfl⟩ | exact fun h => by cases h
  rw [List.takeWhile_append_of_pos fun e he => by simp [(hkept e he).1], List.findSome?_append,
    List.findSome?_eq_none_iff.mpr fun e he => (hkept e he).2]
  rfl

theorem Cleared.append (hes : ∀ e ∈ es, e.body.movesReview = false) (h : Cleared older) :
    Cleared (es ++ older) := by
  refine h.imp (fun happroved => ?_) fun hpass => ?_
  · rw [List.any_append, happroved, Bool.or_true]
  · rw [lastVerdict_of_append hes, hpass]

theorem Cleared.cons {e : RunEvent} (he : e.body.movesReview = false) (h : Cleared older) :
    Cleared (e :: older) := by
  rw [← List.singleton_append]
  refine h.append fun e' he' => ?_
  rw [List.mem_singleton.mp he']
  exact he

theorem LandingsCleared.append (h : LandingsCleared older)
    (hes : ∀ e ∈ es, e.body.startsLanding = false) : LandingsCleared (es ++ older) := by
  induction es with
  | nil => exact h
  | cons e es ih =>
      obtain ⟨he, hes⟩ := List.forall_mem_cons.mp hes
      refine ⟨fun hstarts => ?_, ih hes⟩
      rw [he] at hstarts
      cases hstarts

/-- Landings among events of others, when each of them is cleared. -/
theorem LandingsCleared.approved (h : LandingsCleared older)
    (hes : ∀ e ∈ es, e.body.movesReview = false)
    (hcleared : ∀ e ∈ es, e.body.startsLanding = true → Cleared older) :
    LandingsCleared (es ++ older) := by
  induction es with
  | nil => exact h
  | cons e es ih =>
      obtain ⟨_, hes⟩ := List.forall_mem_cons.mp hes
      obtain ⟨he, hcleared⟩ := List.forall_mem_cons.mp hcleared
      exact ⟨fun hstarts => (he hstarts).append hes, ih hes hcleared⟩

theorem LandingsCleared.split (h : LandingsCleared older) {newer rest : List RunEvent}
    {e : RunEvent} (hsplit : older = newer ++ e :: rest) (he : e.body.startsLanding = true) :
    Cleared rest := by
  induction newer generalizing older with
  | nil =>
      subst hsplit
      exact h.1 he
  | cons e' newer ih =>
      subst hsplit
      exact ih h.2 rfl

/-- Events that neither begin a landing nor precheck one. -/
def Quiet (es : List RunEvent) : Prop :=
  ∀ e ∈ es, e.body.startsLanding = false ∧ e.body.isPrecheck = false

theorem quiet_nil : Quiet [] := by simp [Quiet]

theorem quiet_singleton {e : RunEvent}
    (he : e.body.startsLanding = false ∧ e.body.isPrecheck = false) : Quiet [e] := by
  simpa [Quiet] using he

/-- More quiet events: a new anchor is no precheck, and without one the verdict stands. -/
theorem Gated.append (h : Gated r) (hlog : r'.log = es ++ r.log) (hes : Quiet es) : Gated r' := by
  constructor
  · rw [hlog]
    exact h.landed.append fun e he => (hes e he).1
  · intro anchor rest ha hpre
    by_cases hmoves : ∀ e ∈ es, e.body.movesReview = false
    · rw [fromAnchor_of_append hlog hmoves] at ha
      rw [hlog, lastVerdict_of_append hmoves]
      exact h.prechecked anchor rest ha hpre
    · -- The anchor is one of the new events.
      exfalso
      have hnonempty : ¬(es.dropWhile fun e => !e.body.movesReview).isEmpty = true := by
        intro hempty
        rw [List.isEmpty_iff, List.dropWhile_eq_nil_iff] at hempty
        exact hmoves fun e he => by simpa using hempty e he
      have hanchor : anchor ∈ es := by
        unfold RunRecord.fromAnchor at ha
        rw [hlog, List.dropWhile_append, if_neg hnonempty] at ha
        cases hdrop : es.dropWhile fun e => !e.body.movesReview with
        | nil => exact absurd (by rw [hdrop]; rfl) hnonempty
        | cons e rest' =>
            rw [hdrop, List.cons_append, List.cons.injEq] at ha
            rw [← ha.1]
            exact (List.dropWhile_sublist _).subset (hdrop ▸ List.mem_cons_self)
      rw [(hes anchor hanchor).2] at hpre
      cases hpre

theorem ClearedFor.append (hlog : r'.log = es ++ r.log)
    (hes : ∀ e ∈ es, e.body.movesReview = false) {phase : Phase} (h : ClearedFor r phase) :
    ClearedFor r' phase := by
  have hcleared (hr : Cleared r.log) : Cleared r'.log := by
    rw [hlog]
    exact hr.append hes
  have hverdict (hr : lastVerdict r.log = some .pass) : lastVerdict r'.log = some .pass := by
    rw [hlog, lastVerdict_of_append hes]
    exact hr
  cases phase with
  | exiting watch => exact fun hafter => hcleared (h hafter)
  | gone session after => exact fun hafter => hcleared (h hafter)
  | awaitingSlot => exact hcleared h
  | passed session => exact hverdict h
  | asking live fix =>
      cases fix with
      | revise => trivial
      | conflict => exact hverdict h
  | _ => trivial

end Events

/-! ## The turns of a slot -/

section Turns

variable {r r' : RunRecord} {es : List RunEvent} {token : Token} {next : Option Phase} {seen : Seen}

/-- What a turn leaves. -/
def Gate (r' : RunRecord) (next : Option Phase) : Prop :=
  Gated r' ∧ ∀ p ∈ next, ClearedFor r' p

theorem Gate.stays {phase : Phase} (hK : Gated r) (hS : ClearedFor r phase) :
    Gate r (some phase) :=
  ⟨hK, fun p hp => by cases hp; exact hS⟩

theorem Gated.writes {status : RunStatus} (hK : Gated r) (hw : r.Writes r' es status)
    (hes : Quiet es) : Gated r' := hK.append hw.log_eq hes

theorem Gated.record {e : RunEvent} (hK : Gated r)
    (he : e.body.startsLanding = false ∧ e.body.isPrecheck = false) : Gated (r.record e) :=
  hK.append (show (r.record e).log = [e] ++ r.log from rfl) (quiet_singleton he)

theorem cleared_of_approved (h : r.hasEvent EventBody.isApproval = true) : Cleared r.log := .inl h

theorem pollSession_gate {workspace : String} {exitRequested : Bool} (hK : Gated r)
    (h : pollSession r token workspace exitRequested seen = some (r', next)) : Gate r' next := by
  unfold pollSession at h
  split at h
  · split_ifs at h
    · cases h
      exact .stays hK trivial
    · obtain ⟨hw, rfl⟩ := turn_some.mp h
      exact .stays (hK.writes (RunRecord.finishSupervisionLive_ok hw) quiet_nil) trivial
  · obtain ⟨hw, rfl⟩ := turn_some.mp h
    have hK' : Gated r' := by
      rcases (RunRecord.finishSupervision_ok hw).2 with hw | hw
      · exact hK.writes hw quiet_nil
      · exact hK.writes hw quiet_nil
    refine .stays hK' ?_
    split <;> trivial
  · split_ifs at h
    · cases h
      exact .stays hK trivial
    · cases h
      exact .stays (hK.writes requestExit_writes (quiet_singleton ⟨rfl, rfl⟩)) trivial
  · cases h
    exact .stays hK trivial

/-- Closing a workspace appends at most that it was closed. -/
theorem closeWorkspace_appends {session : SessionRef} {now : Seconds}
    (h : r.closeWorkspace token session now = some r') :
    ∃ es, r'.log = es ++ r.log ∧ Quiet es ∧ ∀ e ∈ es, e.body.movesReview = false := by
  rcases RunRecord.closeWorkspace_ok h with hw | ⟨workspace, hw⟩
  · exact ⟨[], hw.log_eq, quiet_nil, by simp⟩
  · exact ⟨[_], hw.log_eq, quiet_singleton ⟨rfl, rfl⟩, by simp; rfl⟩

theorem pollExit_gate {watch : ExitWatch} (hK : Gated r) (hS : ClearedFor r (.exiting watch))
    (h : pollExit r token watch seen = some (r', next)) : Gate r' next := by
  unfold pollExit at h
  split at h
  · split_ifs at h
    · cases h
      exact .stays hK hS
    · cases h
      exact .stays hK hS
  · split_ifs at h
    · cases h
      exact .stays hK hS
    · cases h
      -- Neither the request nor the closing is a verdict, so what was cleared stays so.
      refine .stays (hK.writes requestExit_writes (quiet_singleton ⟨rfl, rfl⟩)) fun hafter => ?_
      exact (hS hafter).cons rfl
  · split at h
    · rename_i hafter
      split_ifs at h
      · obtain ⟨hw, rfl⟩ := turn_some.mp h
        obtain ⟨es, hlog, hquiet, hmoves⟩ := closeWorkspace_appends hw
        refine .stays (hK.append hlog hquiet) fun _ => ?_
        rw [hlog]
        exact (hS hafter).append hmoves
      · cases h
        exact .stays hK hS
    · cases h
      exact .stays hK hS
  · cases h
    exact .stays hK hS

theorem pollResume_gate {watch : ResumeWatch} (hK : Gated r)
    (h : pollResume r token watch seen = some (r', next)) : Gate r' next := by
  unfold pollResume at h
  split at h
  · split_ifs at h
    · cases h
      exact .stays hK trivial
    · cases h
      exact .stays (hK.writes requestExit_writes (quiet_singleton ⟨rfl, rfl⟩)) trivial
  · split_ifs at h
    · unfold finishResumedSession at h
      split at h
      · split_ifs at h with happroved
        · obtain ⟨hw, rfl⟩ := turn_some.mp h
          have hw := RunRecord.finishResume_ok hw
          refine .stays (hK.writes hw (quiet_singleton ⟨rfl, rfl⟩)) ?_
          exact cleared_of_approved (hasEvent_of_append hw.log_eq happroved)
        · obtain ⟨hw, rfl⟩ := turn_some.mp h
          exact .stays (hK.writes (RunRecord.finishResume_ok hw) (quiet_singleton ⟨rfl, rfl⟩)) trivial
      all_goals
        obtain ⟨hw, rfl⟩ := turn_some.mp h
        exact ⟨hK.writes (RunRecord.finishResume_ok hw) (quiet_singleton ⟨rfl, rfl⟩), by simp⟩
    · cases h
      exact .stays hK trivial
  · cases h
    exact .stays hK trivial

theorem openLandingAsk_gated {askId : AskId} (hK : Gated r)
    (h : r.openLandingAsk askId = some r') : Gated r' := by
  obtain ⟨e, he, hw⟩ := RunRecord.openLandingAsk_ok h
  exact hK.writes hw (quiet_singleton (by rw [he]; exact ⟨rfl, rfl⟩))

theorem afterExit_gate {session : Option SessionRef} {after : AfterExit} (hK : Gated r)
    (hS : ClearedFor r (.gone session after))
    (h : afterExit r token session after seen = some (r', next)) : Gate r' next := by
  unfold afterExit at h
  split at h
  · split at h
    · obtain ⟨hw, rfl⟩ := turn_some.mp h
      obtain ⟨es, hlog, hquiet, hmoves⟩ := closeWorkspace_appends hw
      -- The workspace is closed first, whatever comes after.
      have hS' : ClearedFor r (.gone none after) := hS
      exact .stays (hK.append hlog hquiet) (hS'.append hlog hmoves)
    · cases h
      exact .stays hK hS
  · split_ifs at h
    · cases h
      exact .stays hK hS
    · split at h
      · cases h
        exact .stays hK (hS rfl)
      · cases h
        exact .stays hK trivial
      · cases h
        exact .stays hK hS
  · split at h
    · obtain ⟨hw, rfl⟩ := turn_some.mp h
      exact .stays (openLandingAsk_gated hK hw) trivial
    · obtain ⟨hw, rfl⟩ := turn_some.mp h
      exact .stays (openLandingAsk_gated hK hw) trivial
    · cases h
      exact .stays hK trivial
    · cases h
      exact .stays hK hS
  · cases h
    exact .stays hK hS

theorem pollValidation_gate {session : Option SessionRef} (hK : Gated r)
    (h : pollValidation r token session seen = some (r', next)) : Gate r' next := by
  unfold pollValidation at h
  split at h
  · obtain ⟨hw, rfl⟩ := turn_some.mp h
    obtain ⟨_, es, status, hw, hes, _⟩ := RunRecord.finishValidation_ok hw
    refine .stays (hK.writes hw ?_) ?_
    · rcases hes with rfl | ⟨checks, rfl⟩ | ⟨paths, rfl⟩ <;>
        simp [Quiet, EventBody.startsLanding, EventBody.isPrecheck]
    · unfold afterValidation
      split
      · split_ifs with happroved
        · exact fun _ => cleared_of_approved happroved
        · exact fun hafter => by cases hafter
        · trivial
      · exact fun hafter => by cases hafter
      · exact fun hafter => by cases hafter
  · cases h
    exact .stays hK trivial

theorem beginReview_gate {session : Option SessionRef} {retried : Bool} (hK : Gated r) :
    Gate (beginReview r session retried seen).1 (some (beginReview r session retried seen).2) := by
  unfold beginReview
  split
  · refine .stays (hK.record ⟨rfl, rfl⟩) ?_
    dsimp only
    split
    · trivial
    · exact fun hafter => by cases hafter
  · exact .stays hK trivial

theorem pollReview_gate {session : Option SessionRef} {retried : Bool} (hK : Gated r) :
    Gate (pollReview r session retried seen).1 (some (pollReview r session retried seen).2) := by
  unfold pollReview
  split
  · rename_i verdict
    refine .stays (hK.record ⟨rfl, rfl⟩) ?_
    cases verdict with
    | pass => exact rfl
    | concern => exact fun hafter => by cases hafter
    | revise => trivial
  · refine .stays hK ?_
    dsimp only
    split
    · exact fun hafter => by cases hafter
    · trivial
  · exact .stays hK fun hafter => by cases hafter
  · exact .stays hK trivial

theorem requestRevise_gate {session : Option SessionRef} (hK : Gated r) :
    Gate (requestRevise r session).1 (some (requestRevise r session).2) := by
  unfold requestRevise
  split
  · exact .stays hK fun hafter => by cases hafter
  · split
    · split
      · exact .stays (hK.record ⟨rfl, rfl⟩) trivial
      · exact .stays hK fun hafter => by cases hafter
    · exact .stays hK fun hafter => by cases hafter

/-- A precheck of a passed head. -/
theorem conflictPrecheck_gate {requested asked unsent : Bool} {phase : Phase} (hK : Gated r)
    (hpass : lastVerdict r.log = some .pass)
    (hS : ∀ r' : RunRecord, lastVerdict r'.log = some .pass → ClearedFor r' phase) :
    Gate (conflictPrecheck r requested asked unsent) (some phase) := by
  have hverdict : lastVerdict (conflictPrecheck r requested asked unsent).log = some .pass := hpass
  refine .stays ⟨⟨(fun hstarts => by cases hstarts), hK.landed⟩, fun _ _ _ _ => hverdict⟩ ?_
  exact hS _ hverdict

theorem requestRebase_gate {session : Option SessionRef} (hK : Gated r)
    (hpass : lastVerdict r.log = some .pass) :
    Gate (requestRebase r session).1 (some (requestRebase r session).2) := by
  unfold requestRebase
  split
  · exact conflictPrecheck_gate hK hpass fun _ _ hafter => by cases hafter
  · split
    · split
      · exact conflictPrecheck_gate hK hpass fun _ hverdict => hverdict
      · exact conflictPrecheck_gate hK hpass fun _ hverdict _ => .inr hverdict
    · exact conflictPrecheck_gate hK hpass fun _ hverdict _ => .inr hverdict

theorem precheck_gate {session : Option SessionRef} (hK : Gated r)
    (hpass : lastVerdict r.log = some .pass) :
    Gate (precheck r session seen).1 (some (precheck r session seen).2) := by
  unfold precheck
  split
  · exact .stays hK fun _ => .inr hpass
  · exact requestRebase_gate hK hpass
  · exact .stays hK hpass

theorem typeRequest_gate {live : SessionRef} {fix : Fix} (hK : Gated r)
    (hS : ClearedFor r (.asking live fix)) :
    Gate (typeRequest r live fix seen).1 (some (typeRequest r live fix seen).2) := by
  unfold typeRequest
  split
  · exact .stays hK trivial
  · exact .stays (hK.record ⟨rfl, rfl⟩) fun hafter => by cases hafter
  · exact conflictPrecheck_gate hK hS fun _ hverdict _ => .inr hverdict
  · exact .stays hK hS

theorem pollRevise_gate {live : SessionRef} {fix : Fix} (hK : Gated r) :
    Gate (pollRevise r live fix seen).1 (some (pollRevise r live fix seen).2) := by
  unfold pollRevise
  split
  · split
    · cases fix
      all_goals exact .stays (hK.record ⟨rfl, rfl⟩) trivial
    · exact .stays hK trivial
  · exact .stays hK fun hafter => by cases hafter
  · exact .stays hK trivial

/-- A landing of a cleared run begins. -/
theorem beginIntegration_gated {main : CommitSha} (hK : Gated r) (hcleared : Cleared r.log)
    (h : r.beginIntegration token main = some r') : Gated r' := by
  obtain ⟨_, _, previous, hw⟩ := RunRecord.beginIntegration_ok h
  have hlog : r'.log = .bare (.milestone (.integrationStarted main previous)) :: r.log := hw.log_eq
  constructor
  · rw [hlog]
    exact ⟨fun _ => hcleared, hK.landed⟩
  · intro anchor older ha hpre
    rw [fromAnchor_of_cons hlog rfl] at ha
    rw [hlog]
    exact hK.prechecked anchor older ha hpre

theorem pollSlot_gate (hK : Gated r) (hS : ClearedFor r .awaitingSlot)
    (h : pollSlot r token seen = some (r', next)) : Gate r' next := by
  unfold pollSlot at h
  split at h
  · obtain ⟨hw, rfl⟩ := turn_some.mp h
    exact .stays (beginIntegration_gated hK hS hw) trivial
  · obtain ⟨hw, rfl⟩ := turn_some.mp h
    exact ⟨hK.writes (RunRecord.parkRechecked_ok hw).2 (quiet_singleton ⟨rfl, rfl⟩), by simp⟩
  · obtain ⟨hw, rfl⟩ := turn_some.mp h
    exact ⟨hK.writes (RunRecord.releaseLease_ok hw) quiet_nil, by simp⟩
  · cases h
    exact .stays hK hS

theorem pollLanding_gate (hK : Gated r)
    (h : pollLanding r token seen = some (r', next)) : Gate r' next := by
  unfold pollLanding at h
  split at h
  · rename_i landed
    obtain ⟨hw, rfl⟩ := turn_some.mp h
    obtain ⟨_, status, _, hw⟩ := RunRecord.leaveIntegration_ok hw
    refine ⟨hK.writes hw (quiet_singleton ?_), by simp⟩
    cases landed <;> exact ⟨rfl, rfl⟩
  · cases h
    exact ⟨hK, by simp⟩
  · cases h
    exact .stays hK trivial

theorem pollRecovery_gate (hK : Gated r)
    (h : pollRecovery r token seen = some (r', next)) : Gate r' next := by
  unfold pollRecovery at h
  split at h
  · obtain ⟨hw, rfl⟩ := turn_some.mp h
    obtain ⟨_, status, _, hw⟩ := RunRecord.finishTriage_ok hw
    exact .stays (hK.writes hw (quiet_singleton ⟨rfl, rfl⟩)) trivial
  all_goals
    cases h
    exact .stays hK trivial

/-! ### Adoption -/

theorem exits_gate {after : AfterExit} (hS : after = .land → Cleared r.log) :
    ClearedFor r (r.exits after) := by
  intro hafter
  dsimp only at hafter
  split at hafter
  · cases hafter
  · exact hS hafter

/-- A verdict that is the anchor is the last one since the validation. -/
theorem lastVerdict_of_anchor {anchor : RunEvent} {older : List RunEvent} {verdict : ReviewDecision}
    (ha : r.fromAnchor = anchor :: older)
    (hbody : anchor.body = .runtime (.reviewFinished verdict)) :
    lastVerdict r.log = some verdict := by
  have hsplit : r.log = r.sinceAnchor ++ anchor :: older := by
    rw [← ha]
    exact (List.takeWhile_append_dropWhile ..).symm
  have hsince : ∀ e ∈ r.sinceAnchor, e.body.movesReview = false := by
    intro e he
    simpa using List.mem_takeWhile_imp he
  rw [hsplit, lastVerdict_of_append hsince]
  unfold lastVerdict
  rw [List.takeWhile_cons_of_pos (by rw [hbody]; rfl), List.findSome?_cons_of_isSome]
  · rw [hbody]
    rfl
  · rw [hbody]
    rfl

/-- A review that passed by its anchor has the verdict. -/
theorem Gated.lastVerdict_of_passed (hK : Gated r) (h : r.ReviewPassed) : lastVerdict r.log = some .pass := by
  cases h with
  | verdict found body => exact lastVerdict_of_anchor found body
  | precheck found body => exact hK.prechecked _ _ found (by rw [body]; rfl)

theorem adoptReview_gate (hK : Gated r) :
    Gate r.adoptReview.1 (some r.adoptReview.2) := by
  have hadopted := adoptReview_adopted r
  generalize r.adoptReview = adopted at hadopted ⊢
  cases hadopted with
  | review | fix => exact .stays hK trivial
  | passed passed => exact .stays hK (hK.lastVerdict_of_passed passed)
  | exits cleared =>
      refine .stays hK (exits_gate fun hland => ?_)
      rcases cleared hland with happroved | hpassed
      · exact cleared_of_approved happroved
      · exact .inr (hK.lastVerdict_of_passed hpassed)
  | failed => exact .stays (hK.record ⟨rfl, rfl⟩) fun hafter => by cases hafter

theorem rebuilt_gate {phase : Phase} (hK : Gated r) (h : r.rebuilt = some (r', phase)) :
    Gate r' (some phase) := by
  unfold RunRecord.rebuilt at h
  split at h
  · rw [Option.some.injEq] at h
    have hgate := adoptReview_gate hK
    rw [h] at hgate
    exact hgate
  · cases h
    exact .stays hK trivial
  · obtain ⟨workspace, _, h⟩ := Option.map_eq_some_iff.mp h
    cases h
    exact .stays hK trivial

theorem Gate.of_goesOn {phase : Phase} {turn : Option Turn} (hK : Gated r)
    (hS : ClearedFor r phase) (ht : turn = some (r', next) → Gate r' next)
    (h : goesOn r phase seen turn = some (r', next)) : Gate r' next := by
  rcases goesOn_cases h with ⟨_, h⟩ | ⟨rfl, rfl⟩
  · exact ht h
  · exact .stays hK hS

theorem Gate.of_moves {turn : RunRecord × Phase} (ht : Gate turn.1 (some turn.2))
    (h : moves turn = some (r', next)) : Gate r' next := by
  obtain ⟨rfl, rfl⟩ := moves_some h
  exact ht

/-- A turn of the leaseholder keeps the gate. -/
theorem takeTurn_gate {phase : Phase} (hK : Gated r) (hS : ClearedFor r phase)
    (h : takeTurn r token phase seen = some (r', next)) : Gate r' next := by
  -- One lemma for each phase; only landing needs the verdict.
  cases phase with
  | session workspace exitRequested => exact pollSession_gate hK h
  | validating session => exact pollValidation_gate hK h
  | review session retried => exact .of_moves (pollReview_gate hK) h
  | revise live fix => exact .of_moves (pollRevise_gate hK) h
  | exiting watch => exact pollExit_gate hK hS h
  | resume watch => exact pollResume_gate hK h
  | awaitingSlot => exact pollSlot_gate hK hS h
  | landing => exact pollLanding_gate hK h
  | recovery => exact pollRecovery_gate hK h
  | taken =>
      refine .of_goesOn hK hS (fun ht => ?_) h
      obtain ⟨⟨r₁, phase⟩, hbuilt, ht⟩ := Option.bind_eq_some_iff.mp ht
      exact .of_moves (rebuilt_gate hK hbuilt) ht
  | reviewing session retried => exact .of_moves (beginReview_gate hK) h
  | revising session => exact .of_goesOn hK hS (.of_moves (requestRevise_gate hK)) h
  | passed session => exact .of_moves (precheck_gate hK hS) h
  | asking live fix => exact .of_moves (typeRequest_gate hK hS) h
  | rewritten live =>
      refine .of_goesOn hK hS (fun ht => ?_) h
      obtain ⟨hw, rfl⟩ := turn_some.mp ht
      exact .stays (hK.writes (RunRecord.restartValidation_ok hw) quiet_nil) trivial
  | gone session after => exact afterExit_gate hK hS h
  | failing =>
      have hkept : Gate (r.runtime .reviewFailed) (some .leaving) :=
        .stays (hK.record ⟨rfl, rfl⟩) trivial
      exact .of_goesOn hK hS (.of_moves hkept) h
  | leaving =>
      refine .of_goesOn hK hS (fun ht => ?_) h
      obtain ⟨hw, rfl⟩ := turn_some.mp ht
      exact ⟨hK.writes (RunRecord.releaseLease_ok hw) quiet_nil, by simp⟩

/-! ### Taking the run, and the writes of others -/

theorem opens_gate {opening : Opening} {phase : Phase} (hK : Gated r)
    (h : opening.take token r = some (r', phase)) : Gated r' ∧ ClearedFor r' phase := by
  cases opening with
  | adopt previous =>
      simp only [Opening.take, RunRecord.adopt, guard, Option.bind_eq_bind,
        Option.bind_eq_some_iff, RunRecord.under_some, Option.pure_def, Option.some.injEq,
        Prod.mk.injEq] at h
      obtain ⟨_, _, _, ⟨_, ⟨_, rfl⟩, _, _, rfl⟩, rfl, rfl⟩ := h
      exact ⟨⟨hK.landed, hK.prechecked⟩, trivial⟩
  | beginResume main workspace =>
      simp only [Opening.take, RunRecord.beginResume, guard, Option.bind_eq_bind,
        Option.bind_eq_some_iff, Option.pure_def, Option.some.injEq, Prod.mk.injEq] at h
      obtain ⟨_, ⟨_, _, rfl⟩, rfl, rfl⟩ := h
      exact ⟨hK.append List.singleton_append.symm (quiet_singleton ⟨rfl, rfl⟩), trivial⟩
  | skipResume head main =>
      simp only [Opening.take, RunRecord.skipResume, guard, Option.bind_eq_bind,
        Option.bind_eq_some_iff, RunRecord.apply_some, Option.pure_def, Option.some.injEq,
        Prod.mk.injEq] at h
      obtain ⟨_, ⟨_, _, _, ⟨run, hrun, rfl⟩, rfl⟩, rfl, rfl⟩ := h
      refine ⟨hK.append List.singleton_append.symm (quiet_singleton ⟨rfl, rfl⟩), ?_⟩
      -- Skipped with an approval it may land; without, it validates again.
      by_cases happroved : r.hasEvent EventBody.isApproval = true
      · split
        · trivial
        · exact cleared_of_approved (hasEvent_of_cons (r := r) rfl happroved)
      · simp only [TaskRun.skipResume, except_bind_ok, except_pure_ok, if_neg happroved] at hrun
        obtain ⟨_, _, rfl⟩ := hrun
        split
        · trivial
        · rename_i hvalidating
          exact absurd rfl hvalidating
  | land main =>
      simp only [Opening.take, guard, Option.bind_eq_bind, Option.bind_eq_some_iff,
        Option.pure_def, Option.some.injEq, Prod.mk.injEq] at h
      obtain ⟨_, hguard, _, hbegin, rfl, rfl⟩ := h
      refine ⟨beginIntegration_gated hK (cleared_of_approved ?_) hbegin, trivial⟩
      split at hguard
      · rename_i hc
        exact hc.2.1
      · cases hguard
  | beginTriage =>
      simp only [Opening.take, RunRecord.beginTriage, guard, Option.bind_eq_bind,
        Option.bind_eq_some_iff, Option.pure_def, Option.some.injEq, Prod.mk.injEq] at h
      obtain ⟨_, ⟨_, _, rfl⟩, rfl, rfl⟩ := h
      exact ⟨⟨hK.landed, hK.prechecked⟩, trivial⟩

theorem stirs_gate (hK : Gated r) (h : Stirs r r' es) :
    Gated r' ∧ ∀ phase, ClearedFor r phase → ClearedFor r' phase := by
  have hmoves : ∀ e ∈ es, e.body.movesReview = false := by
    intro e he
    have hwatch := h.others e he
    simp only [EventBody.isWatchKind, Bool.or_eq_false_iff] at hwatch
    exact hwatch.1.1
  refine ⟨⟨?_, fun anchor older ha hpre => ?_⟩, fun phase hS => hS.append h.log_eq hmoves⟩
  · rw [h.log_eq]
    exact hK.landed.approved hmoves fun e he hs => cleared_of_approved (h.landings e he hs)
  · rw [fromAnchor_of_append h.log_eq hmoves] at ha
    rw [h.log_eq, lastVerdict_of_append hmoves]
    exact hK.prechecked anchor older ha hpre

/-- What a handoff leaves is never on its way to a landing. -/
def Phase.handedOver : Phase → Bool
  | .resume _ => true
  | .exiting watch => watch.after ≠ .land
  | _ => false

/-- The gate is kept along settled steps. -/
theorem gate_rule : SlotRule Gated ClearedFor (fun _ => true)
    (fun _ => Phase.handedOver) where
  turn hK hS _ _ h := takeTurn_gate hK hS h
  opens hK h := opens_gate hK h
  outside hK h := stirs_gate hK h
  drops _ hK := hK.writes RunRecord.dropLease_writes quiet_nil
  ends hK h := hK.writes (RunRecord.finishResume_ok h) (quiet_singleton ⟨rfl, rfl⟩)
  taken _ := trivial
  restores {r phase} _ hB := by
    cases phase with
    | resume watch => trivial
    | exiting watch => exact fun hafter => absurd hafter (by simpa [Phase.handedOver] using hB)
    | _ => cases hB

/-! ## What a handoff leaves -/

/-- The snapshot left for the next process is of a phase with one. -/
def SnapshotHandedOver (w : Watched) : Prop :=
  ∀ slot ∈ w.snapshot, slot.phase.handedOver = true

theorem snapshotOf_handedOver {w : Watched} {slot left : Slot} (h : w.snapshotOf slot = some left) :
    left.phase.handedOver = true := by
  unfold Watched.snapshotOf at h
  split at h
  · rename_i hp
    cases h
    rw [hp]
    rfl
  · rename_i watch hp
    split at h
    · rename_i hafter
      split_ifs at h
      cases h
      rw [hp]
      simp [Phase.handedOver, hafter]
    · cases h
  · cases h

theorem snapshot_same {w w' : Watched} (h : SnapshotHandedOver w)
    (hs : w'.snapshot = w.snapshot ∨ w'.snapshot = none) : SnapshotHandedOver w' := by
  intro slot hslot
  rcases hs with hs | hs
  · exact h slot (hs ▸ hslot)
  · rw [hs] at hslot
    cases hslot

theorem snapshot_step {w : Watched} {op : WatchOp} (h : SnapshotHandedOver w) :
    SnapshotHandedOver (w.step op) := by
  -- Only a hand-off writes the snapshot, and a rebuild takes it away.
  cases op with
  | turn n seen =>
      refine snapshot_same h (.inl ?_)
      show (w.turn n seen).snapshot = _
      unfold Watched.turn
      split
      · rfl
      · split_ifs
        · rfl
        · split
          · rename_i turn _
            obtain ⟨record, next⟩ := turn
            cases next <;> rfl
          · rfl
  | fail n =>
      refine snapshot_same h (.inl ?_)
      unfold Watched.step
      dsimp only
      split <;> rfl
  | crash token => exact snapshot_same h (.inl rfl)
  | handOff token =>
      show SnapshotHandedOver (w.handOff token)
      unfold Watched.handOff
      dsimp only
      split
      · intro slot hslot
        rcases Option.or_eq_some_iff.mp hslot with hslot | ⟨_, hslot⟩
        · obtain ⟨s, _, hleft⟩ := List.exists_of_findSome?_eq_some hslot
          exact snapshotOf_handedOver hleft
        · exact h slot hslot
      · exact h
  | rebuild token =>
      refine snapshot_same h ?_
      show (w.rebuild token).snapshot = w.snapshot ∨ (w.rebuild token).snapshot = none
      unfold Watched.rebuild
      dsimp only
      split_ifs
      · split
        · exact .inr rfl
        · split <;> exact .inr rfl
      · exact .inl rfl
      · exact .inl rfl
  | opens token opening =>
      refine snapshot_same h (.inl ?_)
      show (w.opens token opening).snapshot = _
      unfold Watched.opens
      split_ifs
      · rfl
      · split <;> rfl
  | outside op =>
      refine snapshot_same h (.inl ?_)
      unfold Watched.step
      dsimp only
      split <;> rfl

/-! ## Whole runs -/

variable {taskId : TaskId} {baseCommit : CommitSha} {workspace : String}

theorem gate_step {w : Watched} {op : WatchOp} (hop : w.settled op = true)
    (h : Held Gated ClearedFor w ∧ SnapshotHandedOver w) :
    Held Gated ClearedFor (w.step op) ∧ SnapshotHandedOver (w.step op) := by
  refine ⟨gate_rule.step hop ?_ h.1, snapshot_step h.2⟩
  unfold Watched.readsBack
  split
  · rw [Option.all_eq_true]
    intro slot _
    split <;> rfl
  · rename_i token
    rw [Option.all_eq_true]
    intro slot hslot
    rw [Bool.or_eq_true]
    exact .inr (h.2 slot hslot)
  · rfl

theorem gate_init : Held Gated ClearedFor (watching token taskId baseCommit workspace).init ∧
    SnapshotHandedOver (watching token taskId baseCommit workspace).init := by
  refine ⟨⟨⟨by simp [watching], by simp [watching]⟩, ⟨trivial, fun _ _ h => by cases h⟩, ?_⟩,
    fun slot hslot => by cases hslot⟩
  intro slot hslot _
  rw [List.mem_singleton.mp hslot]
  trivial

/-- Along settled steps every landing on record began approved, or after a review that passed since the
latest validation. -/
theorem landings_reviewed (token : Token) (taskId : TaskId) (baseCommit : CommitSha)
    (workspace : String) (ops : List WatchOp)
    (hops : (watching token taskId baseCommit workspace).Meets (fun w op => w.settled op = true)
      (watching token taskId baseCommit workspace).init ops)
    (newer older : List RunEvent) (e : RunEvent)
    (hlog : ((watching token taskId baseCommit workspace).run ops).record.log = newer ++ e :: older)
    (hlanding : e.body.startsLanding = true) : Cleared older :=
  (Machine.invariant_of_meets (fun _ _ => gate_step) hops gate_init).1.record.landed.split hlog
    hlanding

/-- A passed review whose session exited, landed by the supervisor that adopted it. -/
theorem landings_reviewed_adopted :
    let M := watching 5 0 7 "w"
    let ops := [.outside (.registerWrapper 5), .outside (.registerAgent 1), .turn 0 .idle,
      .turn 0 (.validated { accepted := true, resultCommit := some 9 }), .turn 0 (.started true),
      .turn 0 (.verdict .pass), .turn 0 .merges, .turn 0 (.asksExit true), .crash 5,
      .opens 6 (.adopt 5), .turn 0 .goesOn, .outside (.wrapperExited 0), .turn 0 .goesOn,
      .turn 0 (.closed (some 3)), .turn 0 .goesOn, .turn 0 (.begins 7)]
    ∃ e, (M.run ops).record.log = e :: (M.run ops).record.log.tail ∧ e.body.startsLanding = true ∧
      Cleared (M.run ops).record.log.tail := by
  intro M ops
  have hops : M.Meets (fun w op => w.settled op = true) M.init ops := by decide +kernel
  have hstarts : (M.run ops).record.log.head?.any (fun e => e.body.startsLanding) = true := by
    decide +kernel
  clear_value ops
  cases hlog : (M.run ops).record.log with
  | nil =>
      rw [hlog] at hstarts
      cases hstarts
  | cons e older =>
      rw [hlog] at hstarts
      exact ⟨e, rfl, hstarts, landings_reviewed 5 0 7 "w" ops hops [] older e hlog hstarts⟩

/-- A supervisor stopped in the middle of a pass keeps its slot while another one lands the run and
defers it; it then resumes the run itself, and its old slot takes the lease for its own: the run lands
again while the new commit is still under review. -/
theorem landing_under_review :
    let run := (watching 5 0 7 "w").run [.outside (.registerWrapper 5), .outside (.registerAgent 1),
      .turn 0 .idle, .turn 0 (.validated { accepted := true, resultCommit := some 9 }),
      .turn 0 (.started true), .turn 0 (.verdict .pass), .turn 0 .merges, .turn 0 (.asksExit true),
      .outside (.wrapperExited 0), .turn 0 .goesOn, .turn 0 (.closed (some 3)), .turn 0 .goesOn,
      .opens 6 (.adopt 5), .turn 1 .goesOn, .turn 1 .goesOn, .turn 1 .goesOn, .turn 1 (.begins 7),
      .turn 1 (.landed (.deferred .rebaseConflict)), .opens 5 (.beginResume 8 "w2"),
      .outside (.registerWrapper 5), .outside (.registerResumeAgent 2), .turn 1 (.resumed .resolved),
      .turn 1 (.validated { accepted := true, resultCommit := some 10 }), .turn 1 (.started true),
      .turn 0 (.begins 8)]
    (run.record.log.head?.any fun e => e.body.startsLanding) = true ∧
      ¬Cleared run.record.log.tail := by
  decide +kernel

end Turns

end Dagq
