/-
# Dagq.Stats.Runs -- what the tracks say is what the log says.

There is one track for each run with an event.  It stands at the first event that finished the run, and
has a landing exactly if the log has one.
-/
import Dagq.Domain.Stats
import Mathlib.Data.List.Induction

namespace Dagq.Stats

/-! ## What the log says of a run -/

/-- The event is recorded of the run. -/
def RunEvent.ofRun (event : RunEvent) (r : RunId) : Bool := event.runId = some r && event.taskId.isSome

/-- The event finishes its run. -/
def RunEvent.finishes (event : RunEvent) : Bool :=
  event.kind = .runIntegrated || event.status = some "failed" || event.status = some "interrupted"

/-- The first event that finished the run. -/
def firstFinish (events : List RunEvent) (r : RunId) : Option EventId :=
  (events.find? fun event => event.ofRun r && event.finishes).map (·.id)

/-- The run landed. -/
def landed (events : List RunEvent) (r : RunId) : Bool :=
  events.any fun event => event.ofRun r && event.kind = .runIntegrated

theorem firstFinish_append (events more : List RunEvent) (r : RunId) :
    firstFinish (events ++ more) r = (firstFinish events r).or (firstFinish more r) := by
  rw [firstFinish, List.find?_append, Option.map_or]
  rfl

theorem firstFinish_singleton (event : RunEvent) (r : RunId) :
    firstFinish [event] r = if event.ofRun r && event.finishes then some event.id else none := by
  rw [firstFinish, List.find?_singleton]
  split <;> rfl

theorem landed_append (events more : List RunEvent) (r : RunId) :
    landed (events ++ more) r = (landed events r || landed more r) := List.any_append

theorem firstFinish_eq_none {events : List RunEvent} {r : RunId}
    (h : ∀ event ∈ events, event.ofRun r = false) : firstFinish events r = none := by
  rw [firstFinish, Option.map_eq_none_iff, List.find?_eq_none]
  intro event hmem
  simp [h event hmem]

theorem landed_eq_false {events : List RunEvent} {r : RunId}
    (h : ∀ event ∈ events, event.ofRun r = false) : landed events r = false := by
  rw [landed, List.any_eq_false]
  intro event hmem
  simp [h event hmem]

/-! ## The tracks -/

section Tracks

variable {goals : TaskId → Option GoalId} {events : List RunEvent}

/-- Only a landing says anything of where the run stands, by its kind. -/
theorem Track.observeKind_spec (track : Track) (event : RunEvent) :
    (track.observeKind event).stats.runId = track.stats.runId ∧
      (track.observeKind event).stats.finishedEventId = track.stats.finishedEventId.or
        (if event.kind = .runIntegrated then some event.id else none) ∧
      (track.observeKind event).stats.landedAt.isSome =
        (track.stats.landedAt.isSome || decide (event.kind = .runIntegrated)) := by
  unfold Track.observeKind
  cases event.kind with
  | firstCommitObserved | receiptObserved | validationFinished =>
      dsimp only
      split <;> simp
  | _ => simp

theorem Track.observe_runId (track : Track) (event : RunEvent) :
    (track.observe event).stats.runId = track.stats.runId := by
  have hkind := (track.observeKind_spec event).1
  unfold Track.observe Track.observeStatus
  split
  · exact hkind
  · exact hkind

/-- The finishing event of a track is the first. -/
theorem Track.observe_finished (track : Track) (event : RunEvent) :
    (track.observe event).stats.finishedEventId = track.stats.finishedEventId.or
      (if event.finishes then some event.id else none) := by
  have hkind := (track.observeKind_spec event).2.1
  unfold Track.observe Track.observeStatus RunEvent.finishes
  cases hs : event.status with
  | none =>
      rw [hkind]
      by_cases hland : event.kind = .runIntegrated <;> simp [hland]
  | some status =>
      show (if _ then _ else _) = _
      rw [hkind]
      by_cases hland : event.kind = .runIntegrated <;>
        by_cases hend : status = "failed" ∨ status = "interrupted" <;>
        cases track.stats.finishedEventId <;> simp [hland, hend]

theorem Track.observe_landed (track : Track) (event : RunEvent) :
    (track.observe event).stats.landedAt.isSome =
      (track.stats.landedAt.isSome || decide (event.kind = .runIntegrated)) := by
  have hkind := (track.observeKind_spec event).2.2
  unfold Track.observe Track.observeStatus
  split
  · exact hkind
  · exact hkind

/-- The track of a run says what its events say. -/
def Tells (events : List RunEvent) (track : Track) : Prop :=
  track.stats.finishedEventId = firstFinish events track.stats.runId ∧
    track.stats.landedAt.isSome = landed events track.stats.runId

theorem Tells.observe {track : Track} {event : RunEvent} (h : Tells events track)
    (hrun : event.ofRun track.stats.runId = true) : Tells (events ++ [event]) (track.observe event) := by
  constructor
  · rw [track.observe_finished, track.observe_runId, h.1, firstFinish_append, firstFinish_singleton,
      hrun, Bool.true_and]
  · rw [track.observe_landed, track.observe_runId, h.2, landed_append]
    simp [landed, hrun]

/-- The event of another run changes nothing. -/
theorem Tells.skip {track : Track} {event : RunEvent} (h : Tells events track)
    (hrun : event.ofRun track.stats.runId = false) : Tells (events ++ [event]) track := by
  constructor
  · rw [h.1, firstFinish_append, firstFinish_singleton, hrun]
    simp
  · rw [h.2, landed_append]
    simp [landed, hrun]

/-- The tracks are one for each run of the log. -/
structure Tracked (events : List RunEvent) (tracks : List Track) : Prop where
  nodup : (tracks.map (·.stats.runId)).Nodup
  tells : ∀ track ∈ tracks, Tells events track
  all : ∀ r, (∃ event ∈ events, event.ofRun r = true) → r ∈ tracks.map (·.stats.runId)

theorem Tracked.observe {tracks : List Track} (h : Tracked events tracks) (event : RunEvent) :
    Tracked (events ++ [event]) (observe goals tracks event) := by
  unfold Stats.observe
  split
  next r taskId hr ht =>
    have hof : ∀ r', event.ofRun r' = decide (r = r') := fun r' => by
      simp [RunEvent.ofRun, hr, ht]
    by_cases hold : tracks.any (·.stats.runId = r) = true
    · rw [if_pos hold]
      -- The run is known: its track alone moves, and keeps its id.
      have hids : (tracks.map fun track =>
          if track.stats.runId = r then track.observe event else track).map (·.stats.runId) =
          tracks.map (·.stats.runId) := by
        rw [List.map_map]
        refine List.map_congr_left fun track _ => ?_
        show (if _ then _ else _ : Track).stats.runId = _
        split
        · exact track.observe_runId event
        · rfl
      refine ⟨hids ▸ h.nodup, ?_, ?_⟩
      · intro track htrack
        obtain ⟨old, hmem, rfl⟩ := List.mem_map.mp htrack
        split
        next hsame => exact (h.tells old hmem).observe (by rw [hof, hsame, decide_eq_true rfl])
        next hother =>
          exact (h.tells old hmem).skip (by rw [hof]; exact decide_eq_false fun he => hother he.symm)
      · rintro r' ⟨e, he, her⟩
        rw [hids]
        rcases List.mem_append.mp he with he | he
        · exact h.all r' ⟨e, he, her⟩
        · rw [List.mem_singleton.mp he, hof, decide_eq_true_eq] at her
          obtain ⟨track, hmem, hsame⟩ := List.any_eq_true.mp hold
          rw [← her, ← of_decide_eq_true hsame]
          exact List.mem_map_of_mem hmem
    · rw [if_neg hold]
      -- A run not tracked has had no event.
      have hnew : ∀ e ∈ events, e.ofRun r = false := by
        intro e he
        by_contra hof'
        have hmem := h.all r ⟨e, he, by simpa using hof'⟩
        obtain ⟨track, htrack, hsame⟩ := List.mem_map.mp hmem
        exact hold (List.any_eq_true.mpr ⟨track, htrack, decide_eq_true hsame⟩)
      have hid := Track.observe_runId { stats := { runId := r, taskId, goalId := goals taskId } } event
      refine ⟨?_, ?_, ?_⟩
      · rw [List.map_append, List.map_singleton, hid, List.nodup_append_comm, List.singleton_append,
          List.nodup_cons]
        refine ⟨fun hmem => ?_, h.nodup⟩
        obtain ⟨track, htrack, hsame⟩ := List.mem_map.mp hmem
        exact hold (List.any_eq_true.mpr ⟨track, htrack, decide_eq_true hsame⟩)
      · intro track htrack
        rcases List.mem_append.mp htrack with htrack | htrack
        · refine (h.tells track htrack).skip ?_
          rw [hof]
          refine decide_eq_false fun he => hold ?_
          exact List.any_eq_true.mpr ⟨track, htrack, decide_eq_true he.symm⟩
        · rw [List.mem_singleton.mp htrack]
          refine Tells.observe ⟨?_, ?_⟩ (by rw [hof]; exact decide_eq_true rfl)
          · exact (firstFinish_eq_none hnew).symm
          · exact (landed_eq_false hnew).symm
      · rintro r' ⟨e, he, her⟩
        rw [List.map_append, List.map_singleton, hid, List.mem_append, List.mem_singleton]
        rcases List.mem_append.mp he with he | he
        · exact .inl (h.all r' ⟨e, he, her⟩)
        · rw [List.mem_singleton.mp he, hof, decide_eq_true_eq] at her
          exact .inr her.symm
  next hnone =>
    have hof : ∀ r', event.ofRun r' = false := by
      intro r'
      cases hr : event.runId with
      | none => simp [RunEvent.ofRun, hr]
      | some r =>
          cases ht : event.taskId with
          | none => simp [RunEvent.ofRun, ht]
          | some taskId => exact absurd ht (hnone r taskId hr)
    refine ⟨h.nodup, fun track htrack => (h.tells track htrack).skip (hof _), ?_⟩
    rintro r' ⟨e, he, her⟩
    rcases List.mem_append.mp he with he | he
    · exact h.all r' ⟨e, he, her⟩
    · rw [List.mem_singleton.mp he, hof] at her
      cases her

theorem tracked_runs (events : List RunEvent) (goals : TaskId → Option GoalId) :
    Tracked events (runs events goals) := by
  induction events using List.reverseRecOn with
  | nil => exact ⟨List.nodup_nil, by simp [runs], by simp⟩
  | append_singleton events event ih =>
      rw [runs, List.foldl_append]
      exact ih.observe event

end Tracks

end Dagq.Stats
