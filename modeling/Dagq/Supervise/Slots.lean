/-
# Dagq.Supervise.Slots -- one slot per supervisor, and what only the leaseholder's slot can change.

A supervisor that lost a run's lease finds that out at the start of its next pass.  In between it may be
inside a pass, or take the lease again with the old slot still there; a step is settled when neither
happens.  Along settled steps a supervisor has one slot for the run.  What a turn of the leaseholder
appends and what others write is said once here.
-/
import Dagq.Supervise.Watch
import Mathlib.Tactic.SplitIfs

namespace Dagq

open Lib

/-! ## Settled steps -/

/-- A pass writes under the lease it began with, and a process takes the lease of the run with no slot
for it left. -/
def Watched.settled (w : Watched) : WatchOp → Bool
  | .turn n _ => w.slots[n]?.all fun slot => slot.phase.atRest || w.record.lease = some slot.token
  | .opens token _ | .outside (.integrate token _) => w.slots.all (·.token ≠ token)
  | _ => true

/-- A supervisor has at most one slot, and none while its process is being replaced. -/
structure Tidy (w : Watched) : Prop where
  single : (w.slots.map Slot.token).Nodup
  away : ∀ token ∈ w.handedOver, ∀ slot ∈ w.slots, slot.token ≠ token

section Tidy

variable {w : Watched}

theorem nodup_set {slots : List Slot} {n : Nat} {slot : Slot} {phase : Phase}
    (h : (slots.map Slot.token).Nodup) (hn : slots[n]? = some slot) :
    ((slots.set n { token := slot.token, phase := phase }).map Slot.token).Nodup := by
  have hsame : (slots.set n { token := slot.token, phase := phase }).map Slot.token
      = slots.map Slot.token := by
    rw [List.map_set]
    refine List.ext_getElem? fun m => ?_
    by_cases hm : n = m
    · subst hm
      rw [List.getElem?_set_self (by simpa using (List.getElem?_eq_some_iff.mp hn).1),
        List.getElem?_map, hn]
      rfl
    · rw [List.getElem?_set_ne hm]
  rw [hsame]
  exact h

theorem Tidy.of_sublist (h : Tidy w) {record : RunRecord} {snapshot : Option Slot}
    {handedOver : List Token} {slots : List Slot} (hs : slots.Sublist w.slots)
    (ha : ∀ token ∈ handedOver, token ∈ w.handedOver ∨ ∀ slot ∈ slots, slot.token ≠ token) :
    Tidy { record := record, slots := slots, snapshot := snapshot, handedOver := handedOver } := by
  refine ⟨h.single.sublist (hs.map _), fun token ht slot hslot => ?_⟩
  rcases ha token ht with ha | ha
  · exact h.away token ha slot (hs.subset hslot)
  · exact ha slot hslot

theorem Tidy.add (h : Tidy w) {record : RunRecord} {snapshot : Option Slot}
    {handedOver : List Token} {slot : Slot} (hnone : ∀ s ∈ w.slots, s.token ≠ slot.token)
    (ho : ∀ token ∈ handedOver, token ∈ w.handedOver ∧ token ≠ slot.token) :
    Tidy { record := record, slots := w.slots ++ [slot], snapshot := snapshot,
           handedOver := handedOver } := by
  constructor
  · rw [List.map_append]
    refine List.nodup_append.mpr ⟨h.single, by simp, ?_⟩
    rintro _ ht _ hs rfl
    obtain ⟨s, hs', hst⟩ := List.mem_map.mp ht
    simp only [List.map_cons, List.map_nil, List.mem_singleton] at hs
    exact hnone s hs' (hst.trans hs)
  · intro token ht s hs
    obtain ⟨hold, hne⟩ := ho token ht
    rcases List.mem_append.mp hs with hs | hs
    · exact h.away token hold s hs
    · rw [List.mem_singleton.mp hs]
      exact hne.symm

theorem without_sublist (w : Watched) (token : Token) : (w.without token).Sublist w.slots :=
  List.filter_sublist

theorem mem_without {token : Token} {slot : Slot} :
    slot ∈ w.without token ↔ slot ∈ w.slots ∧ slot.token ≠ token := by
  simp [Watched.without]

theorem Tidy.turned (h : Tidy w) {n : Nat} {slot : Slot} (hn : w.slots[n]? = some slot)
    (turn : Turn) : Tidy (w.leaves n slot.token turn) := by
  obtain ⟨record, next⟩ := turn
  cases next with
  | none => exact h.of_sublist (List.eraseIdx_sublist _ _) fun token ht => .inl ht
  | some phase =>
      refine ⟨nodup_set h.single hn, fun token ht s hs => ?_⟩
      rcases List.mem_or_eq_of_mem_set hs with hs | rfl
      · exact h.away token ht s hs
      · exact h.away token ht slot (List.mem_of_getElem? hn)

theorem Tidy.gives (h : Tidy w) (n : Nat) (slot : Slot) : Tidy (w.gives n slot) :=
  h.of_sublist (List.eraseIdx_sublist _ _) fun _ ht => .inl ht

theorem tidy_step {op : WatchOp} (hop : w.settled op = true) (h : Tidy w) : Tidy (w.step op) := by
  cases op with
  | turn n seen =>
      show Tidy (w.turn n seen)
      unfold Watched.turn
      split
      · exact h
      · rename_i slot hn
        split_ifs
        · exact h.of_sublist (List.eraseIdx_sublist _ _) fun token ht => .inl ht
        · split
          · exact h.turned hn _
          · exact h.gives n slot
  | fail n =>
      unfold Watched.step
      dsimp only
      split
      · exact h.gives n _
      · exact h
  | crash token =>
      exact h.of_sublist (without_sublist w token) fun t ht => .inl (List.mem_filter.mp ht).1
  | handOff token =>
      show Tidy (w.handOff token)
      unfold Watched.handOff
      dsimp only
      split
      · refine h.of_sublist (without_sublist w token) fun t ht => ?_
        rcases List.mem_cons.mp ht with rfl | ht
        · exact .inr fun slot hslot => (mem_without.mp hslot).2
        · exact .inl ht
      · exact h
  | rebuild token =>
      show Tidy (w.rebuild token)
      unfold Watched.rebuild
      dsimp only
      split_ifs with hin hlease
      · -- The token had left, so it has no slot yet.
        have hnone : ∀ s ∈ w.slots, s.token ≠ token := h.away token hin
        have hover : ∀ t ∈ w.handedOver.filter (· ≠ token), t ∈ w.handedOver ∧ t ≠ token := by
          simp
        split
        · rename_i slot hslot
          have htoken : slot.token = token := by
            simpa using (Option.filter_eq_some_iff.mp hslot).2
          exact h.add (htoken ▸ hnone) (htoken ▸ hover)
        · split
          all_goals first
            | exact h.add hnone hover
            | exact h.of_sublist (List.Sublist.refl _) fun t ht => .inl (hover t ht).1
      · exact h.of_sublist (List.Sublist.refl _) fun t ht => .inl (List.mem_filter.mp ht).1
      · exact h
  | opens token opening =>
      have hnone : ∀ s ∈ w.slots, s.token ≠ token := by simpa [Watched.settled] using hop
      show Tidy (w.opens token opening)
      unfold Watched.opens
      split_ifs with hin
      · exact h
      · split
        · refine h.add hnone fun t ht => ⟨ht, fun he => hin ?_⟩
          rwa [show t = token from he] at ht
        · exact h
  | outside op =>
      unfold Watched.step
      dsimp only
      split
      · exact ⟨h.single, h.away⟩
      · exact h

end Tidy

/-! ## What every turn writes -/

section Writes

variable {r r' : RunRecord} {token : Token} {next : Option Phase} {seen : Seen}

theorem requestExit_writes {typed : Bool} :
    r.Writes (r.requestExit typed) [.bare (.runtime .exitRequested)] r.run.status := by
  refine ⟨rfl, rfl, .inl rfl, rfl, rfl, id, ?_⟩
  show (if typed = true then r.typed + 1 else r.typed) ≤ r.typed + 1
  split <;> omega

theorem turn_some {f : Option RunRecord} {phase : RunRecord → Option Phase} :
    (do let r ← f; return (r, phase r)) = some (r', next) ↔ f = some r' ∧ phase r' = next := by
  cases f with
  | none => simp
  | some r₁ =>
      simp only [Option.bind_eq_bind, Option.bind_some, Option.pure_def, Option.some.injEq,
        Prod.mk.injEq]
      constructor <;> rintro ⟨rfl, h⟩ <;> exact ⟨rfl, h⟩

/-- Some events are appended, and the run is left in some status. -/
def Moved (r r' : RunRecord) : Prop := ∃ es status, r.Writes r' es status

theorem Moved.refl : Moved r r := ⟨[], _, rfl, rfl, .inl rfl, rfl, rfl, id, Nat.le_add_right _ _⟩

theorem Moved.record {e : RunEvent} : Moved r (r.record e) := ⟨_, _, RunRecord.record_writes⟩

theorem pollSession_moves {workspace : String} {exitRequested : Bool}
    (h : pollSession r token workspace exitRequested seen = some (r', next)) : Moved r r' := by
  unfold pollSession at h
  split at h
  · split_ifs at h
    · cases h
      exact .refl
    · have h := (turn_some.mp h).1
      exact ⟨_, _, RunRecord.finishSupervisionLive_ok h⟩
  · have h := (turn_some.mp h).1
    rcases (RunRecord.finishSupervision_ok h).2 with h | h
    · exact ⟨_, _, h⟩
    · exact ⟨_, _, h⟩
  · split_ifs at h
    · cases h
      exact .refl
    · cases h
      exact ⟨_, _, requestExit_writes⟩
  · cases h
    exact .refl

theorem closeWorkspace_moves {session : SessionRef} {now : Seconds}
    (h : r.closeWorkspace token session now = some r') : Moved r r' := by
  rcases RunRecord.closeWorkspace_ok h with h | ⟨_, h⟩
  · exact ⟨_, _, h⟩
  · exact ⟨_, _, h⟩

theorem pollExit_moves {watch : ExitWatch} (h : pollExit r token watch seen = some (r', next)) :
    Moved r r' := by
  unfold pollExit at h
  split at h
  · split_ifs at h <;> cases h <;> exact .refl
  · split_ifs at h
    · cases h
      exact .refl
    · cases h
      exact ⟨_, _, requestExit_writes⟩
  · split at h
    · split_ifs at h
      · have h := (turn_some.mp h).1
        exact closeWorkspace_moves h
      · cases h
        exact .refl
    · cases h
      exact .refl
  · cases h
    exact .refl

theorem finishResumedSession_moves {watch : ResumeWatch} {outcome : ResumeOutcome}
    (h : finishResumedSession r token watch outcome = some (r', next)) : Moved r r' := by
  unfold finishResumedSession at h
  split at h
  · split_ifs at h
    all_goals
      have h := (turn_some.mp h).1
      exact ⟨_, _, RunRecord.finishResume_ok h⟩
  all_goals
    have h := (turn_some.mp h).1
    exact ⟨_, _, RunRecord.finishResume_ok h⟩

theorem pollResume_moves {watch : ResumeWatch}
    (h : pollResume r token watch seen = some (r', next)) : Moved r r' := by
  unfold pollResume at h
  split at h
  · split_ifs at h
    · cases h
      exact .refl
    · cases h
      exact ⟨_, _, requestExit_writes⟩
  · split_ifs at h
    · exact finishResumedSession_moves h
    · cases h
      exact .refl
  · cases h
    exact .refl

theorem openLandingAsk_moves {askId : AskId} (h : r.openLandingAsk askId = some r') :
    Moved r r' := by
  obtain ⟨e, _, h⟩ := RunRecord.openLandingAsk_ok h
  exact ⟨_, _, h⟩

theorem afterExit_moves {session : Option SessionRef} {after : AfterExit}
    (h : afterExit r token session after seen = some (r', next)) : Moved r r' := by
  unfold afterExit at h
  split at h
  · split at h
    · have h := (turn_some.mp h).1
      exact closeWorkspace_moves h
    · cases h
      exact .refl
  · split_ifs at h
    · cases h
      exact .refl
    · split at h <;> cases h <;> exact .refl
  · split at h
    · have h := (turn_some.mp h).1
      exact openLandingAsk_moves h
    · have h := (turn_some.mp h).1
      exact openLandingAsk_moves h
    · cases h
      exact .refl
    · cases h
      exact .refl
  · cases h
    exact .refl

/-- By its anchor the review of the run is due: no verdict counts, and no ask of a review is open. -/
def RunRecord.ReviewDue (r : RunRecord) : Prop :=
  match r.fromAnchor with
  | [] => True
  | anchor :: _ =>
      match anchor.body with
      | .runtime .reviewStarted => r.unclosedLandingAskAfter.isSome = false
      | .runtime (.reviewFinished _) => False
      | .runtime .reviseUnsent | .runtime (.conflictPrecheck _ false) => r.passedBefore.isSome = false
      | .milestone (.validationFinished ..) =>
          r.hasEvent EventBody.isApproval = false ∧ (r.parkedByRecheck && r.hasUnclosedLandingAsk) = false
      | _ => True

/-- The review passed: the anchor says so, or is the precheck of one that has a verdict. -/
inductive RunRecord.ReviewPassed (r : RunRecord) : Prop
  | verdict {anchor : RunEvent} {older : List RunEvent} (found : r.fromAnchor = anchor :: older)
      (body : anchor.body = .runtime (.reviewFinished .pass))
  | precheck {anchor : RunEvent} {older : List RunEvent} {code : Option ReasonCode}
      {requested : Bool} (found : r.fromAnchor = anchor :: older)
      (body : anchor.body = .runtime (.conflictPrecheck code requested))
      (judged : r.passedBefore.isSome = true)

/-- How an adopted run that waits for its landing goes on. -/
inductive Adopted (r : RunRecord) : RunRecord × Phase → Prop
  | review (due : r.ReviewDue) : Adopted r (r, .reviewing r.sessionOf false)
  /-- The live session goes on with what it was asked to fix. -/
  | fix {live : SessionRef} (session : r.sessionOf = some live) (due : r.ReviewDue) (fix : Fix) :
      Adopted r (r, .revise live fix)
  | passed (passed : r.ReviewPassed) (unasked : r.after EventBody.isExitRequest = false) :
      Adopted r (r, .passed r.sessionOf)
  | exits {after : AfterExit}
      (cleared : after = .land → r.hasEvent EventBody.isApproval = true ∨ r.ReviewPassed) :
      Adopted r (r, r.exits after)
  /-- The review failed, and its failure is recorded only now. -/
  | failed : Adopted r (r.runtime .reviewFailed, r.exits (.rest true))

/-- By the last event that moved the review along. -/
theorem adoptReview_adopted (r : RunRecord) : Adopted r r.adoptReview := by
  unfold RunRecord.adoptReview
  dsimp only
  cases ha : r.fromAnchor with
  | nil => exact .review (by simp [RunRecord.ReviewDue, ha])
  | cons anchor older =>
      dsimp only
      cases hbody : anchor.body with
      | notice n => exact .review (by simp [RunRecord.ReviewDue, ha, hbody])
      | milestone m =>
          cases m with
          | validationFinished accepted commit status =>
              dsimp only
              split_ifs with happroved hparked
              · exact .exits fun _ => .inl happroved
              · exact .exits nofun
              · refine .review ?_
                simp only [RunRecord.ReviewDue, ha, hbody]
                exact ⟨Bool.eq_false_iff.mpr happroved, Bool.eq_false_iff.mpr hparked⟩
          | _ => exact .review (by simp [RunRecord.ReviewDue, ha, hbody])
      | runtime event =>
          cases event
          case reviewStarted =>
            dsimp only
            split_ifs with hask hfailed
            · exact .exits nofun
            · exact .failed
            · exact .review (by simpa [RunRecord.ReviewDue, ha, hbody] using hask)
          case reviewFinished verdict =>
            cases verdict with
            | pass =>
                have hpassed : r.ReviewPassed := .verdict ha hbody
                dsimp only
                split_ifs with hasked
                · exact .exits fun _ => .inr hpassed
                · exact .passed hpassed (Bool.eq_false_iff.mpr hasked)
            | _ => exact .exits nofun
          case reviseRequested =>
            have hdue : r.ReviewDue := by simp [RunRecord.ReviewDue, ha, hbody]
            dsimp only
            split
            · split_ifs
              · exact .fix ‹_› hdue .revise
              · exact .review hdue
            · exact .review hdue
          case reviseUnsent =>
            dsimp only
            split_ifs with hjudged
            · exact .exits nofun
            · exact .review (by simpa [RunRecord.ReviewDue, ha, hbody] using hjudged)
          case conflictPrecheck code requested =>
            cases requested with
            | true =>
                have hdue : r.ReviewDue := by simp [RunRecord.ReviewDue, ha, hbody]
                dsimp only
                split
                · split_ifs
                  · exact .fix ‹_› hdue .conflict
                  · exact .review hdue
                · exact .review hdue
            | false =>
                have hpassed (hnone : ¬r.passedBefore.isNone = true) : r.ReviewPassed :=
                  .precheck ha hbody (by simpa [Option.isSome_iff_ne_none] using hnone)
                dsimp only
                split_ifs with hnone hasked hask
                · exact .review (by simpa [RunRecord.ReviewDue, ha, hbody] using hnone)
                · exact .exits nofun
                · exact .exits fun _ => .inr (hpassed hnone)
                · exact .passed (hpassed hnone) (Bool.eq_false_iff.mpr hasked)
          all_goals exact .review (by simp [RunRecord.ReviewDue, ha, hbody])

theorem adoptReview_moves : Moved r r.adoptReview.1 := by
  have hadopted := adoptReview_adopted r
  generalize r.adoptReview = adopted at hadopted ⊢
  cases hadopted with
  | failed => exact .record
  | _ => exact .refl

theorem rebuilt_moves {phase : Phase} (h : r.rebuilt = some (r', phase)) : Moved r r' := by
  unfold RunRecord.rebuilt at h
  split at h
  · rw [Option.some.injEq] at h
    rw [show r' = r.adoptReview.1 by rw [h]]
    exact adoptReview_moves
  · cases h
    exact .refl
  · obtain ⟨workspace, _, h⟩ := Option.map_eq_some_iff.mp h
    cases h
    exact .refl

theorem requestRevise_moves {session : Option SessionRef} : Moved r (requestRevise r session).1 := by
  unfold requestRevise
  repeat' split
  all_goals first
    | exact .refl
    | exact .record

theorem requestRebase_moves {session : Option SessionRef} : Moved r (requestRebase r session).1 := by
  unfold requestRebase
  repeat' split
  all_goals exact .record

theorem moves_some {turn : RunRecord × Phase} (h : moves turn = some (r', next)) :
    turn.1 = r' ∧ next = some turn.2 := by
  cases h
  exact ⟨rfl, rfl⟩

theorem Moved.of_moves {turn : RunRecord × Phase} (ht : Moved r turn.1)
    (h : moves turn = some (r', next)) : Moved r r' := (moves_some h).1 ▸ ht

theorem Moved.of_stays {phase : Phase} (h : some (r, some phase) = some (r', next)) : Moved r r' := by
  cases h
  exact .refl

/-- A turn that is seen to go on is taken; any other leaves the phase as it is. -/
theorem goesOn_cases {phase : Phase} {turn : Option Turn}
    (h : goesOn r phase seen turn = some (r', next)) :
    (seen = .goesOn ∧ turn = some (r', next)) ∨ (r' = r ∧ next = some phase) := by
  unfold goesOn at h
  split at h
  · exact .inl ⟨rfl, h⟩
  · cases h
    exact .inr ⟨rfl, rfl⟩

theorem Moved.of_goesOn {phase : Phase} {turn : Option Turn}
    (ht : turn = some (r', next) → Moved r r') (h : goesOn r phase seen turn = some (r', next)) :
    Moved r r' := by
  rcases goesOn_cases h with ⟨_, h⟩ | ⟨rfl, _⟩
  · exact ht h
  · exact .refl

theorem pollValidation_moves {session : Option SessionRef}
    (h : pollValidation r token session seen = some (r', next)) : Moved r r' := by
  unfold pollValidation at h
  split at h
  · obtain ⟨_, _, _, hw, _⟩ := RunRecord.finishValidation_ok (turn_some.mp h).1
    exact ⟨_, _, hw⟩
  · exact .of_stays h

theorem beginReview_moves {session : Option SessionRef} {retried : Bool} :
    Moved r (beginReview r session retried seen).1 := by
  unfold beginReview
  split
  · exact .record
  · exact .refl

theorem precheck_moves {session : Option SessionRef} : Moved r (precheck r session seen).1 := by
  unfold precheck
  split
  · exact .refl
  · exact requestRebase_moves
  · exact .refl

theorem pollReview_moves {session : Option SessionRef} {retried : Bool} :
    Moved r (pollReview r session retried seen).1 := by
  unfold pollReview
  split
  · exact .record
  all_goals exact .refl

theorem typeRequest_moves {live : SessionRef} {fix : Fix} :
    Moved r (typeRequest r live fix seen).1 := by
  unfold typeRequest
  split
  · exact .refl
  · exact .record
  · exact .record
  · exact .refl

theorem pollRevise_moves {live : SessionRef} {fix : Fix} :
    Moved r (pollRevise r live fix seen).1 := by
  unfold pollRevise
  split
  · split
    · cases fix <;> exact .record
    · exact .refl
  all_goals exact .refl

theorem beginIntegration_writes {main : CommitSha} (hlease : r.lease = some token)
    (h : r.beginIntegration token main = some r') : ∃ previous,
      r.Writes r' [.bare (.milestone (.integrationStarted main previous))] .integrating := by
  obtain ⟨_, hlease', previous, hw⟩ := RunRecord.beginIntegration_ok h
  exact ⟨previous, hw.log_eq, hw.wrapper_eq, .inl (hlease'.trans hlease.symm), hw.status_eq,
    hw.workspace_eq, hw.closed_of_closed, hw.typed_le⟩

theorem pollSlot_moves (hlease : r.lease = some token)
    (h : pollSlot r token seen = some (r', next)) : Moved r r' := by
  unfold pollSlot at h
  split at h
  · obtain ⟨_, hw⟩ := beginIntegration_writes hlease (turn_some.mp h).1
    exact ⟨_, _, hw⟩
  · exact ⟨_, _, (RunRecord.parkRechecked_ok (turn_some.mp h).1).2⟩
  · exact ⟨_, _, RunRecord.releaseLease_ok (turn_some.mp h).1⟩
  · exact .of_stays h

theorem pollLanding_moves (h : pollLanding r token seen = some (r', next)) : Moved r r' := by
  unfold pollLanding at h
  split at h
  · obtain ⟨_, _, _, hw⟩ := RunRecord.leaveIntegration_ok (turn_some.mp h).1
    exact ⟨_, _, hw⟩
  · cases h
    exact .refl
  · exact .of_stays h

theorem pollRecovery_moves (h : pollRecovery r token seen = some (r', next)) : Moved r r' := by
  unfold pollRecovery at h
  split at h
  · obtain ⟨_, _, _, hw⟩ := RunRecord.finishTriage_ok (turn_some.mp h).1
    exact ⟨_, _, hw⟩
  all_goals exact .of_stays h

/-- A turn of the leaseholder appends events, and keeps the lease or gives it up. -/
theorem takeTurn_moves {phase : Phase} (hlease : r.lease = some token)
    (h : takeTurn r token phase seen = some (r', next)) : Moved r r' := by
  cases phase with
  | session workspace exitRequested => exact pollSession_moves h
  | validating session => exact pollValidation_moves h
  | review session retried => exact .of_moves pollReview_moves h
  | revise live fix => exact .of_moves pollRevise_moves h
  | exiting watch => exact pollExit_moves h
  | resume watch => exact pollResume_moves h
  | awaitingSlot => exact pollSlot_moves hlease h
  | landing => exact pollLanding_moves h
  | recovery => exact pollRecovery_moves h
  | taken =>
      refine .of_goesOn (fun ht => ?_) h
      obtain ⟨⟨r₁, phase⟩, hbuilt, ht⟩ := Option.bind_eq_some_iff.mp ht
      exact .of_moves (rebuilt_moves hbuilt) ht
  | reviewing session retried => exact .of_moves beginReview_moves h
  | revising session => exact .of_goesOn (.of_moves requestRevise_moves) h
  | passed session => exact .of_moves precheck_moves h
  | asking live fix => exact .of_moves typeRequest_moves h
  | rewritten live =>
      exact .of_goesOn (fun ht => ⟨_, _, RunRecord.restartValidation_ok (turn_some.mp ht).1⟩) h
  | gone session after => exact afterExit_moves h
  | failing => exact .of_goesOn (.of_moves .record) h
  | leaving =>
      exact .of_goesOn (fun ht => ⟨_, _, RunRecord.releaseLease_ok (turn_some.mp ht).1⟩) h

/-! ## What the others write -/

/-- The kinds of event that only a slot records: the steps of a review, the requests to exit, and what
becomes of a resume. -/
def EventBody.isWatchKind (body : EventBody) : Bool :=
  body.movesReview || body.isExitRequest || body.isResumeKind

/-- A landing begins. -/
def EventBody.startsLanding : EventBody → Bool
  | .milestone (.integrationStarted ..) => true
  | _ => false

/-- The kinds that begin and end a session. -/
def EventBody.isSessionKind : EventBody → Bool
  | .notice (.agentStarted _) | .notice (.sessionExited _) => true
  | _ => false

/-- What a write of the session does to its wrapper, with the events it appends. -/
inductive WrapperMove (r r' : RunRecord) : List RunEvent → Prop
  | registers (h : r.wrapper = none) : WrapperMove r r' []
  | starts (pid : Pid) (h : r'.sessionAlive = true) (h' : r'.typed = 0) :
      WrapperMove r r' [.bare (.notice (.agentStarted pid))]
  | exits (code : Int) : WrapperMove r r' [.bare (.notice (.sessionExited code))]
  | dies (h : r'.wrapper = none → r.wrapper = none)
      (h' : r'.sessionAlive = true → r.sessionAlive = true) : WrapperMove r r' []

/-- What a write of others leaves alone: the steps of the watch, and a status it cannot reach.  A person's
landing is approved. -/
structure Stirs (r r' : RunRecord) (es : List RunEvent) : Prop where
  log_eq : r'.log = es ++ r.log
  others : ∀ e ∈ es, e.body.isWatchKind = false
  landings : ∀ e ∈ es, e.body.startsLanding = true → r.hasEvent EventBody.isApproval = true
  validating : r'.run.status = .validating → r.run.status = .validating
  workspace_eq : r'.run.workspaceId = r.run.workspaceId
  closed_of_closed : r.run.workspaceClosedAt.isSome → r'.run.workspaceClosedAt.isSome
  typed_le : r'.typed ≤ r.typed
  wrapper : (r'.wrapper = r.wrapper ∧ ∀ e ∈ es, e.body.isSessionKind = false) ∨ WrapperMove r r' es

theorem startAgent_ok {pid : Pid} (h : r.startAgent pid = some r') :
    r'.sessionAlive = true ∧ r'.lease = r.lease ∧ r'.run = r.run ∧ r'.typed = 0 ∧
      r'.log = .bare (.notice (.agentStarted pid)) :: r.log := by
  simp only [RunRecord.startAgent, guard, Option.bind_eq_bind, Option.bind_eq_some_iff,
    Option.pure_def, Option.some.injEq] at h
  obtain ⟨wrapper, hw, _, hguard, rfl⟩ := h
  have hlive : r.sessionAlive = true := by
    split at hguard
    · rename_i hc
      exact hc.1
    · cases hguard
  have hsame : wrapper.exitCode.isNone && !wrapper.gone := by
    simpa [RunRecord.sessionAlive, hw] using hlive
  exact ⟨by simpa [RunRecord.sessionAlive, RunRecord.notice, RunRecord.record] using hsame,
    rfl, rfl, rfl, rfl⟩

/-- A write of others, under which the lease stays or goes. -/
def Stirred (r r' : RunRecord) : Prop :=
  ∃ es, Stirs r r' es ∧ (r'.lease = r.lease ∨ r'.lease = none)

theorem no_exit_typed {es : List RunEvent}
    (h : r'.typed ≤ r.typed + es.countP fun e => e.body.isExitRequest)
    (hothers : ∀ e ∈ es, e.body.isWatchKind = false) : r'.typed ≤ r.typed := by
  have hnone : es.countP (fun e => e.body.isExitRequest) = 0 := by
    refine List.countP_eq_zero.mpr fun e he hexit => ?_
    have := hothers e he
    simp only [EventBody.isWatchKind, Bool.or_eq_false_iff] at this
    rw [this.1.2] at hexit
    cases hexit
  omega

/-- A write that appends nothing a watch or a wrapper writes. -/
theorem Stirs.of_writes {es : List RunEvent} {status : RunStatus} (h : r.Writes r' es status)
    (hothers : ∀ e ∈ es, e.body.isWatchKind = false ∧ e.body.isSessionKind = false ∧
      e.body.startsLanding = false) (hstatus : status ≠ .validating) : Stirs r r' es where
  log_eq := h.log_eq
  others e he := (hothers e he).1
  landings e he hs := by rw [(hothers e he).2.2] at hs; cases hs
  validating hs := absurd (h.status_eq.symm.trans hs) hstatus
  workspace_eq := h.workspace_eq
  closed_of_closed := h.closed_of_closed
  typed_le := no_exit_typed h.typed_le fun e he => (hothers e he).1
  wrapper := .inl ⟨h.wrapper_eq, fun e he => (hothers e he).2.1⟩

/-- Events that neither a watch nor a wrapper writes. -/
theorem others_singleton {e : RunEvent} (h : e.body.isWatchKind = false ∧
    e.body.isSessionKind = false ∧ e.body.startsLanding = false) :
    ∀ e' ∈ [e], e'.body.isWatchKind = false ∧ e'.body.isSessionKind = false ∧
      e'.body.startsLanding = false := by
  intro e' he'
  rw [List.mem_singleton.mp he']
  exact h

/-- A write that leaves the session alone and appends nothing a watch or a wrapper writes. -/
theorem Stirred.of_kept {es : List RunEvent} (hlog : r'.log = es ++ r.log)
    (hothers : ∀ e ∈ es, e.body.isWatchKind = false ∧ e.body.isSessionKind = false ∧
      e.body.startsLanding = false)
    (hstatus : r'.run.status = .validating → r.run.status = .validating)
    (hid : r'.run.workspaceId = r.run.workspaceId)
    (hclosed : r.run.workspaceClosedAt.isSome → r'.run.workspaceClosedAt.isSome)
    (hsession : r'.wrapper = r.wrapper ∧ r'.typed = r.typed)
    (hlease : r'.lease = r.lease ∨ r'.lease = none) : Stirred r r' := by
  obtain ⟨hwrapper, htyped⟩ := hsession
  refine ⟨es, ⟨hlog, fun e he => (hothers e he).1, fun e he hs => ?_, hstatus, hid, hclosed,
    Nat.le_of_eq htyped, .inl ⟨hwrapper, fun e he => (hothers e he).2.1⟩⟩, hlease⟩
  rw [(hothers e he).2.2] at hs
  cases hs

theorem registerWrapper_stirs (h : r.registerWrapper token = some r') : Stirred r r' := by
  simp only [RunRecord.registerWrapper, guard, Option.bind_eq_bind, Option.bind_eq_some_iff,
    RunRecord.under_some, Option.pure_def, Option.some.injEq] at h
  obtain ⟨_, ⟨_, rfl⟩, _, hguard, rfl⟩ := h
  have hnone : r.wrapper = none := by
    split at hguard
    · rename_i hc
      simpa using hc.1
    · cases hguard
  exact ⟨[], ⟨rfl, by simp, by simp, id, rfl, id, Nat.le_refl _, .inr (.registers hnone)⟩, .inl rfl⟩

theorem registerAgent_stirs {pid : Pid} (h : r.registerAgent pid = some r') : Stirred r r' := by
  simp only [RunRecord.registerAgent, Option.bind_eq_bind, Option.bind_eq_some_iff,
    RunRecord.apply_some] at h
  obtain ⟨r₁, h₁, run, hrun, rfl⟩ := h
  obtain ⟨hlive, hlease, hsame, htyped, hlog⟩ := startAgent_ok h₁
  simp only [TaskRun.markRunning, except_bind_ok, except_pure_ok] at hrun
  obtain ⟨_, _, rfl⟩ := hrun
  refine ⟨[.bare (.notice (.agentStarted pid))], ⟨hlog, by simp; rfl,
    by simp [EventBody.startsLanding], ?_, ?_, ?_, htyped ▸ Nat.zero_le _,
    .inr (.starts pid hlive htyped)⟩, .inl hlease⟩
  · intro hs
    cases hs
  · show r₁.run.workspaceId = r.run.workspaceId
    rw [hsame]
  · show r.run.workspaceClosedAt.isSome → r₁.run.workspaceClosedAt.isSome
    rw [hsame]
    exact id

theorem registerResumeAgent_stirs {pid : Pid} (h : r.registerResumeAgent pid = some r') :
    Stirred r r' := by
  obtain ⟨hlive, hlease, hsame, htyped, hlog⟩ := startAgent_ok h
  refine ⟨[.bare (.notice (.agentStarted pid))], ⟨hlog, by simp; rfl,
    by simp [EventBody.startsLanding], ?_, congrArg TaskRun.workspaceId hsame, ?_,
    htyped ▸ Nat.zero_le _, .inr (.starts pid hlive htyped)⟩, .inl hlease⟩
  all_goals
    rw [hsame]
    exact id

theorem wrapperExited_stirs {code : Int} (h : r.wrapperExited code = some r') : Stirred r r' := by
  simp only [RunRecord.wrapperExited, guard, Option.bind_eq_bind, Option.bind_eq_some_iff,
    Option.pure_def, Option.some.injEq] at h
  obtain ⟨_, _, _, _, rfl⟩ := h
  exact ⟨[.bare (.notice (.sessionExited code))],
    ⟨rfl, by simp; rfl, by simp [EventBody.startsLanding], id, rfl, id, Nat.le_refl _,
      .inr (.exits code)⟩, .inl rfl⟩

theorem wrapperDies_stirs : Stirred r r.wrapperDies := by
  refine ⟨[], ⟨rfl, by simp, by simp, id, rfl, id, Nat.le_refl _,
    .inr (.dies Option.map_eq_none_iff.mp ?_)⟩, .inl rfl⟩
  intro hlive
  cases hw : r.wrapper with
  | none => simp [RunRecord.wrapperDies, RunRecord.sessionAlive, hw] at hlive
  | some w =>
      simp only [RunRecord.wrapperDies, RunRecord.sessionAlive, hw, Option.map_some,
        Option.any_some, Bool.and_eq_true, Bool.not_eq_true', Bool.or_eq_false_iff] at hlive ⊢
      exact ⟨hlive.1, hlive.2.1⟩

/-- A person or a landing they start takes the lease of a run that nobody leases. -/
theorem integrate_ok {main : CommitSha} (h : (Outside.integrate token main).write r = some r') :
    r'.lease = some token ∧ ∃ es, Stirs r r' es := by
  simp only [Outside.write, guard, Option.bind_eq_bind, Option.bind_eq_some_iff] at h
  obtain ⟨_, hguard, h⟩ := h
  obtain ⟨_, hlease, previous, hw⟩ := RunRecord.beginIntegration_ok h
  have happroved : r.hasEvent EventBody.isApproval = true := by
    split at hguard
    · rename_i hc
      exact hc.2
    · cases hguard
  refine ⟨hlease, [.bare (.milestone (.integrationStarted main previous))], hw.log_eq,
    by simp; rfl, fun _ _ _ => happroved, fun hs => ?_, hw.workspace_eq, hw.closed_of_closed,
    no_exit_typed hw.typed_le (by simp; rfl), .inl ⟨hw.wrapper_eq, by simp; rfl⟩⟩
  have hstatus : r'.run.status = .integrating := hw.status_eq
  rw [hstatus] at hs
  cases hs

theorem leaveIntegration_stirs {landed : RunRecord.LandingEnd}
    (h : r.leaveIntegration token landed = some r') : Stirred r r' := by
  obtain ⟨_, status, hstatus, hw⟩ := RunRecord.leaveIntegration_ok h
  exact ⟨_, .of_writes hw (others_singleton (by cases landed <;> exact ⟨rfl, rfl, rfl⟩)) hstatus,
    hw.lease_eq⟩

theorem decideLanding_stirs {status : RunStatus} {code : ReasonCode}
    (h : r.decideLanding status code = some r') : Stirred r r' := by
  simp only [RunRecord.decideLanding, guard, Option.bind_eq_bind,
    Option.bind_eq_some_iff, RunRecord.apply_some, Option.pure_def, Option.some.injEq] at h
  obtain ⟨_, _, _, ⟨run, hrun, rfl⟩, rfl⟩ := h
  simp only [TaskRun.decideLanding, except_bind_ok, except_pure_ok, require_ok] at hrun
  obtain ⟨_, _, _, hto, rfl⟩ := hrun
  have hw : r.Writes (({ r with run := { r.run with status := status, lastError := some "" } } :
      RunRecord).notice (.landingDecided code status))
      [.bare (.notice (.landingDecided code status))] status :=
    ⟨rfl, rfl, .inl rfl, rfl, rfl, id, Nat.le_add_right _ _⟩
  refine ⟨_, .of_writes hw (others_singleton ⟨rfl, rfl, rfl⟩) ?_, .inl rfl⟩
  rintro rfl
  simp at hto

theorem parkRechecked_stirs {holder : Option Token} {code : ReasonCode}
    (h : r.parkRechecked holder code = some r') : Stirred r r' := by
  obtain ⟨hlease, hw⟩ := RunRecord.parkRechecked_ok h
  exact ⟨_, .of_writes hw (others_singleton ⟨rfl, rfl, rfl⟩) (by simp), .inr hlease⟩

theorem recover_stirs (h : r.recover = some r') : Stirred r r' := by
  simp only [RunRecord.recover, Option.bind_eq_bind, Option.bind_eq_some_iff,
    RunRecord.apply_some, Option.pure_def, Option.some.injEq] at h
  obtain ⟨_, ⟨run, hrun, rfl⟩, rfl⟩ := h
  have hkept : run.workspaceId = r.run.workspaceId ∧
      run.workspaceClosedAt = r.run.workspaceClosedAt ∧
      (run.status = .validating → r.run.status = .validating) := by
    unfold TaskRun.interrupt at hrun
    split at hrun
    · cases hrun
      exact ⟨rfl, rfl, id⟩
    · simp only [except_bind_ok, except_pure_ok] at hrun
      obtain ⟨_, _, rfl⟩ := hrun
      refine ⟨rfl, rfl, fun hs => ?_⟩
      dsimp only at hs
      split at hs <;> cases hs
  obtain ⟨hid, hclosed, hstatus⟩ := hkept
  exact .of_kept (List.nil_append _).symm (List.forall_mem_nil _) hstatus hid
    (by simp [RunRecord.unleased, hclosed]) ⟨rfl, rfl⟩ (.inr rfl)

theorem decideTriage_stirs {askId : AskId} {answer : String}
    (h : r.decideTriage askId answer = some r') : Stirred r r' := by
  simp only [RunRecord.decideTriage, guard, Option.bind_eq_bind, Option.bind_eq_some_iff,
    Option.pure_def] at h
  obtain ⟨_, _, h⟩ := h
  have hdecided (run : TaskRun) (hid : run.workspaceId = r.run.workspaceId)
      (hclosed : run.workspaceClosedAt = r.run.workspaceClosedAt)
      (hstatus : run.status = .validating → r.run.status = .validating) (open_ : Bool) :
      Stirred r (({ r with run := run } : RunRecord).unleased.notice
        (.triageDecided askId answer open_ run.status)) :=
    .of_kept List.singleton_append.symm (others_singleton ⟨rfl, rfl, rfl⟩) hstatus hid
      (by simp [RunRecord.unleased, RunRecord.notice, RunRecord.record, hclosed]) ⟨rfl, rfl⟩
      (.inr rfl)
  split at h
  · simp only [Option.bind_eq_some_iff, RunRecord.apply_some, Option.some.injEq] at h
    obtain ⟨_, ⟨run, hrun, rfl⟩, rfl⟩ := h
    simp only [TaskRun.resumeAfterTriage, except_bind_ok, except_pure_ok] at hrun
    obtain ⟨_, _, rfl⟩ := hrun
    exact hdecided { r.run with status := .needsSession, lastError := some answer } rfl rfl
      (fun hs => by cases hs) _
  · simp only [Option.bind_some, Option.some.injEq] at h
    subst h
    exact hdecided r.run rfl rfl id _

theorem exhaustResumes_stirs (h : r.exhaustResumes = some r') : Stirred r r' := by
  simp only [RunRecord.exhaustResumes, guard, Option.bind_eq_bind, Option.bind_eq_some_iff,
    RunRecord.apply_some, Option.pure_def, Option.some.injEq] at h
  obtain ⟨_, _, _, ⟨run, hrun, rfl⟩, rfl⟩ := h
  simp only [TaskRun.exhaustResumes, except_bind_ok, except_pure_ok] at hrun
  obtain ⟨_, _, rfl⟩ := hrun
  exact .of_kept (List.nil_append _).symm (List.forall_mem_nil _) (fun hs => by cases hs) rfl id
    ⟨rfl, rfl⟩ (.inr rfl)

theorem sweepWorkspace_stirs {workspace : String} {now : Seconds}
    (h : r.sweepWorkspace workspace now = some r') : Stirred r r' := by
  simp only [RunRecord.sweepWorkspace, Option.bind_eq_bind, Option.bind_eq_some_iff,
    RunRecord.apply_some, Option.pure_def, Option.some.injEq] at h
  obtain ⟨_, ⟨run, hrun, rfl⟩, rfl⟩ := h
  have hkept : run.status = r.run.status ∧ run.workspaceId = r.run.workspaceId ∧
      (r.run.workspaceClosedAt.isSome → run.workspaceClosedAt.isSome) := by
    simp only [TaskRun.recordClosedWorkspace, except_pure_ok] at hrun
    split at hrun <;> subst hrun
    · exact ⟨rfl, rfl, fun _ => rfl⟩
    · exact ⟨rfl, rfl, id⟩
  obtain ⟨hstatus, hid, hclosed⟩ := hkept
  exact .of_kept List.singleton_append.symm (others_singleton ⟨rfl, rfl, rfl⟩)
    (fun hs => hstatus ▸ hs) hid hclosed ⟨rfl, rfl⟩ (.inl rfl)

/-- What happens to the run outside its slots, a landing begun there apart, is no step of a watch. -/
theorem outside_ok {op : Outside} (h : op.write r = some r') : (∃ es, Stirs r r' es) ∧
    (r'.lease = r.lease ∨ r'.lease = none ∨
      ∃ token main, op = .integrate token main ∧ r'.lease = some token) := by
  -- All but a landing by hand leave the lease or drop it.
  have of_stirred : Stirred r r' → (∃ es, Stirs r r' es) ∧ (r'.lease = r.lease ∨ r'.lease = none ∨
      ∃ token main, op = .integrate token main ∧ r'.lease = some token) := by
    rintro ⟨es, hs, hlease | hlease⟩
    · exact ⟨⟨es, hs⟩, .inl hlease⟩
    · exact ⟨⟨es, hs⟩, .inr (.inl hlease)⟩
  cases op with
  | registerWrapper token => exact of_stirred (registerWrapper_stirs h)
  | registerAgent pid => exact of_stirred (registerAgent_stirs h)
  | registerResumeAgent pid => exact of_stirred (registerResumeAgent_stirs h)
  | wrapperExited code => exact of_stirred (wrapperExited_stirs h)
  | wrapperDies =>
      cases h
      exact of_stirred wrapperDies_stirs
  | approve =>
      cases h
      exact of_stirred (.of_kept List.singleton_append.symm (others_singleton ⟨rfl, rfl, rfl⟩) id rfl
        id ⟨rfl, rfl⟩ (.inl rfl))
  | integrate token main =>
      obtain ⟨hlease, hs⟩ := integrate_ok h
      exact ⟨hs, .inr (.inr ⟨token, main, rfl, hlease⟩)⟩
  | leaveIntegration token landed => exact of_stirred (leaveIntegration_stirs h)
  | decideLanding status code => exact of_stirred (decideLanding_stirs h)
  | parkRechecked code => exact of_stirred (parkRechecked_stirs h)
  | openAsk askId =>
      cases h
      exact of_stirred (.of_kept List.singleton_append.symm (others_singleton ⟨rfl, rfl, rfl⟩) id rfl
        id ⟨rfl, rfl⟩ (.inl rfl))
  | closeAsk askId =>
      cases h
      exact of_stirred (.of_kept (List.nil_append _).symm (List.forall_mem_nil _) id rfl id
        ⟨rfl, rfl⟩ (.inl rfl))
  | recover => exact of_stirred (recover_stirs h)
  | decideTriage askId answer => exact of_stirred (decideTriage_stirs h)
  | exhaustResumes => exact of_stirred (exhaustResumes_stirs h)
  | sweepWorkspace workspace now => exact of_stirred (sweepWorkspace_stirs h)

end Writes

/-! ## What is read back after more events -/

section Readers

variable {r r' : RunRecord} {es : List RunEvent}

theorem hasEvent_of_append (h : r'.log = es ++ r.log) {kind : EventBody → Bool}
    (hr : r.hasEvent kind = true) : r'.hasEvent kind = true := by
  unfold RunRecord.hasEvent at hr ⊢
  rw [h, List.any_append, hr, Bool.or_true]

theorem hasEvent_of_cons {e : RunEvent} (h : r'.log = e :: r.log) {kind : EventBody → Bool}
    (hr : r.hasEvent kind = true) : r'.hasEvent kind = true := by
  rw [← List.singleton_append] at h
  exact hasEvent_of_append h hr

theorem fromAnchor_of_append (h : r'.log = es ++ r.log)
    (hes : ∀ e ∈ es, e.body.movesReview = false) : r'.fromAnchor = r.fromAnchor := by
  unfold RunRecord.fromAnchor
  rw [h]
  exact List.dropWhile_append_of_pos fun e he => by simp [hes e he]

theorem fromAnchor_of_cons {e : RunEvent} (h : r'.log = e :: r.log)
    (he : e.body.movesReview = false) : r'.fromAnchor = r.fromAnchor := by
  rw [← List.singleton_append] at h
  refine fromAnchor_of_append h fun e' he' => ?_
  rw [List.mem_singleton.mp he']
  exact he

theorem after_of_append (h : r'.log = es ++ r.log) (hes : ∀ e ∈ es, e.body.movesReview = false)
    {kind : EventBody → Bool} (hr : r.after kind = true) : r'.after kind = true := by
  unfold RunRecord.after RunRecord.sinceAnchor at hr ⊢
  rw [h, List.takeWhile_append_of_pos fun e he => by simp [hes e he], List.any_append, hr,
    Bool.or_true]

theorem fromAnchor_of_anchor {e : RunEvent} (h : r'.log = e :: r.log)
    (he : e.body.movesReview = true) : r'.fromAnchor = e :: r.log := by
  unfold RunRecord.fromAnchor
  rw [h]
  exact List.dropWhile_cons_of_neg (by simp [he])

theorem lastResume_of_append (h : r'.log = es ++ r.log)
    (hes : ∀ e ∈ es, e.body.isResumeKind = false) : r'.lastResume = r.lastResume := by
  unfold RunRecord.lastResume
  rw [h, List.find?_append, List.find?_eq_none.mpr fun e he => by simp [hes e he]]
  rfl

theorem closedSinceResume_of_append (h : r'.log = es ++ r.log)
    (hes : ∀ e ∈ es, e.body.isResumeKind = false) {workspace : String}
    (hr : r.closedSinceResume workspace = true) : r'.closedSinceResume workspace = true := by
  unfold RunRecord.closedSinceResume at hr ⊢
  rw [h, List.takeWhile_append_of_pos fun e he => by simp [hes e he], List.any_append, hr,
    Bool.or_true]

/-- No session comes back without a resume. -/
theorem sessionOf_of_append (h : r'.log = es ++ r.log)
    (hes : ∀ e ∈ es, e.body.isResumeKind = false)
    (hworkspace : r'.run.workspaceId = r.run.workspaceId)
    (hclosed : r.run.workspaceClosedAt.isSome → r'.run.workspaceClosedAt.isSome)
    (hr : r.sessionOf = none) : r'.sessionOf = none := by
  unfold RunRecord.sessionOf at hr ⊢
  rw [lastResume_of_append h hes]
  generalize r.lastResume = last at hr ⊢
  split at hr
  · split at hr
    · rename_i hclosed'
      exact if_pos (closedSinceResume_of_append h hes hclosed')
    · cases hr
  · rfl
  · split at hr
    · rw [hworkspace, Option.map_eq_none_iff.mp hr]
      split <;> rfl
    · rename_i hopen
      have hclosed' : r'.run.workspaceClosedAt.isSome := by
        refine hclosed (Option.isSome_iff_ne_none.mpr fun hnone => hopen ?_)
        rw [hnone]
        rfl
      rw [if_neg]
      rw [Option.isNone_iff_eq_none]
      exact Option.isSome_iff_ne_none.mp hclosed'

end Readers

end Dagq
