/-
# Dagq.Landing.FollowUpRows -- a follow-up's task is a row of the queue.

No operation of the queue takes a task away, and a new task gets an id no row has.  So whatever others
commit between the operations of the calls, every task the calls added is a row in the end, and no two
of them are the same row.
-/
import Dagq.Landing.FollowUps
import Dagq.Queue.Steps

namespace Dagq.FollowUps

open Lib

variable {α : Type} {call : Call} {runId : RunId} {desk : Desk} {s s' : Store}

/-! ## Tasks stay -/

/-- The task is a row of the queue. -/
def HasTask (s : Store) (id : TaskId) : Prop := (s.tasks.get? id).isSome = true

theorem hasTask_along {id : TaskId} (h : Along .any s s') (hs : HasTask s id) : HasTask s' id := by
  have hkept := Machine.inv_of_steps (I := fun b : Board => (b.task id).isSome = true)
    (fun _ _ hb hstep => hstep.task_isSome hb) (t := s.board) (by simpa [Store.board, HasTask] using hs) h
  simpa [Store.board, HasTask] using hkept

/-- A new task is a row no other task was. -/
theorem insertTask_new {new : NewTask} {id : TaskId} (h : insertTask new s = .ok (id, s')) :
    s.tasks.get? id = none ∧ HasTask s' id := by
  obtain ⟨_, s₁, hrow, h⟩ := Txn.bind_ok.mp h
  obtain ⟨_, s₂, htasks, h⟩ := Txn.bind_ok.mp h
  obtain ⟨_, s₃, hgoals, hpure⟩ := Txn.bind_ok.mp h
  obtain ⟨rfl, rfl⟩ := Txn.pure_ok.mp hpure
  simp only [insertTaskRow, Txn.read_bind, domain_bind] at hrow
  obtain ⟨task, _, hrow⟩ := hrow
  obtain ⟨_, s₀, hgoal, hrow⟩ := Txn.bind_ok.mp hrow
  -- The goal is only looked at.
  obtain rfl : s = s₀ := by
    rcases Txn.option_ok.mp hgoal with ⟨_, hpure⟩ | ⟨_, _, hread⟩
    · exact (Txn.pure_ok.mp hpure).2
    · simp only [readGoal_bind, domain_ok] at hread
      obtain ⟨_, _, _, hsame⟩ := hread
      exact hsame
  rw [Txn.write_bind] at hrow
  obtain ⟨_, s₄, hnotice, hpure⟩ := Txn.bind_ok.mp hrow
  obtain ⟨rfl, rfl⟩ := Txn.pure_ok.mp hpure
  refine ⟨Table.nextId_fresh _, ?_⟩
  have hkept : Along .any s₄ s₃ :=
    trans_of (Along .any) (Txn.Moves.of_ok htasks) (Txn.Moves.of_ok hgoals)
  refine hasTask_along (trans_of (Along .any) (Txn.Moves.of_ok hnotice) hkept) ?_
  simp [HasTask, Table.get?_push (Table.nextId_fresh s.tasks)]

/-! ## The tasks of a run -/

/-- The tasks added for the run are rows of the queue, each another one. -/
structure Housed (runId : RunId) (desk : Desk) : Prop where
  rows : ∀ added ∈ desk.added, added.runId = runId → HasTask desk.store added.taskId
  nodup : ((desk.added.filter (·.runId = runId)).map (·.taskId)).Nodup

theorem Housed.of_kept {desk' : Desk} (h : Housed runId desk) (hadded : desk'.added = desk.added)
    (hkept : ∀ id, HasTask desk.store id → HasTask desk'.store id) : Housed runId desk' := by
  refine ⟨fun added hmem hrun => ?_, ?_⟩
  · rw [hadded] at hmem
    exact hkept _ (h.rows added hmem hrun)
  · rw [hadded]
    exact h.nodup

theorem hasTask_meanwhile {id : TaskId} (ops : List Op) (hs : HasTask s id) :
    HasTask (queue.runFrom s ops) id :=
  Machine.invariant (I := fun s => HasTask s id)
    (fun s op hs => hasTask_along (queue_refines (op.respects_any s)) hs) hs ops

theorem Housed.attempt (call : Call) (step : Step) (m : Tx α) [hm : Txn.Moves (Along .any) m]
    (h : Housed runId desk) : Housed runId (attempt call step m desk).2 := by
  unfold FollowUps.attempt
  dsimp only
  split
  · exact h.of_kept rfl fun _ => hasTask_meanwhile _
  · split
    next a s' hok =>
      exact h.of_kept rfl fun _ hs => hasTask_along (hm.of_ok hok) (hasTask_meanwhile _ hs)
    next => exact h.of_kept rfl fun _ => hasTask_meanwhile _

theorem Housed.recordEntry {record : Record} (h : Housed runId desk) :
    Housed runId (recordEntry call record desk) := by
  have hattempt :=
    h.attempt call (.record record.index) (recordRuntimeEvent record.runId (.other "follow_up_registered"))
  unfold FollowUps.recordEntry
  split
  next a desk' heq =>
    rw [heq] at hattempt
    exact hattempt.of_kept rfl fun _ hs => hs
  next desk' heq =>
    rw [heq] at hattempt
    exact hattempt

/-- An operation that succeeds is the transaction, run after what others committed. -/
theorem attempt_some {step : Step} {m : Tx α} {a : α} {desk' : Desk}
    (h : attempt call step m desk = (some a, desk')) :
    ∃ s, m (queue.runFrom desk.store (call.meanwhile step)) = .ok (a, s) ∧
      desk' = { desk with store := s } := by
  unfold attempt at h
  dsimp only at h
  split at h
  · cases h
  · split at h
    next b s hok =>
      cases h
      exact ⟨s, hok, rfl⟩
    next => cases h

/-- The task just added is none of those added before. -/
theorem Housed.add {new : NewTask} {id : TaskId} {index : Nat} {ops : List Op} (h : Housed runId desk)
    (hnew : insertTask new (queue.runFrom desk.store ops) = .ok (id, s)) :
    Housed runId { desk with store := s, added := desk.added ++ [⟨runId, index, id, new⟩] } := by
  obtain ⟨hfresh, hrow⟩ := insertTask_new hnew
  have hkept (other : TaskId) (hother : HasTask desk.store other) : HasTask s other :=
    hasTask_along (Txn.Moves.of_ok hnew) (hasTask_meanwhile ops hother)
  have hrows (added : Added) (hmem : added ∈ desk.added) (hrun : added.runId = runId) :
      added.taskId ≠ id := by
    intro heq
    have hhas := hasTask_meanwhile ops (h.rows added hmem hrun)
    rw [HasTask, heq, hfresh] at hhas
    cases hhas
  refine ⟨fun added hmem hrun => ?_, ?_⟩
  · rcases List.mem_append.mp hmem with hmem | hmem
    · exact hkept _ (h.rows added hmem hrun)
    · rw [List.mem_singleton.mp hmem]
      exact hrow
  · show (((desk.added ++ [Added.mk runId index id new]).filter (·.runId = runId)).map (·.taskId)).Nodup
    rw [List.filter_append, List.map_append, List.filter_cons_of_pos (by simp), List.filter_nil]
    refine List.nodup_append.mpr ⟨h.nodup, List.pairwise_singleton _ _, ?_⟩
    intro other hother last hlast
    obtain ⟨added, hadded, rfl⟩ := List.mem_map.mp hother
    obtain ⟨hmem, hrun⟩ := List.mem_filter.mp hadded
    rw [List.mem_singleton.mp hlast]
    exact hrows added hmem (of_decide_eq_true hrun)

theorem Housed.registerEntry {goalClosed : Bool} {depth : Nat} {entry : Value} {index : Nat}
    (h : Housed runId desk) :
    Housed runId (registerEntry call runId goalClosed depth entry index desk).2 := by
  unfold FollowUps.registerEntry
  split
  next reason => exact h.recordEntry
  next =>
    dsimp only
    split
    next desk' heq =>
      have hattempt :=
        h.attempt call (.add index) (insertTask (newTask call.source call.task runId goalClosed entry))
      rw [heq] at hattempt
      exact hattempt
    next created desk' heq =>
      obtain ⟨s, hnew, rfl⟩ := attempt_some heq
      exact (((h.add hnew).attempt _ _ _).attempt _ _ _).recordEntry

/-- By induction over the entries. -/
theorem Housed.registerEntries {goalClosed : Bool} {depth : Nat} {registered : List Nat}
    {places : List (Value × Nat)} (h : Housed runId desk) :
    Housed runId (registerEntries call runId goalClosed depth registered places desk).2 := by
  induction places generalizing desk with
  | nil => exact h
  | cons place rest ih =>
      obtain ⟨entry, index⟩ := place
      unfold FollowUps.registerEntries
      split
      · exact ih h
      · exact ih h.registerEntry

theorem Housed.registerFollowUps {followUps : Option Value} (h : Housed runId desk) :
    Housed runId (registerFollowUps call runId followUps desk).2 := by
  have hevents := h.attempt call .runEvents (pure () : Tx Unit)
  unfold FollowUps.registerFollowUps
  split
  · exact h
  · split
    next desk₁ heq =>
      rw [heq] at hevents
      exact hevents
    next desk₁ heq =>
      rw [heq] at hevents
      have hgoal : Housed runId (readGoalClosed call desk₁).2 := by
        unfold readGoalClosed
        split
        · exact hevents.attempt _ _ _
        · exact hevents
      dsimp only
      split
      next desk₂ heq₂ =>
        rw [heq₂] at hgoal
        exact hgoal
      next closed desk₂ heq₂ =>
        rw [heq₂] at hgoal
        have hdepth : Housed runId (readDepth call desk₂).2 := by
          have hread :=
            hgoal.attempt call .depth (do let row ← readTask call.source; return row.followUpDepth)
          unfold readDepth
          split
          next depth desk₃ heq₃ =>
            rw [heq₃] at hread
            exact hread
          next desk₃ heq₃ =>
            rw [heq₃] at hread
            exact hread
        exact hdepth.registerEntries

/-- By induction over the calls. -/
theorem housed_afterCalls {followUps : Option Value} {calls : List Call} (h : Housed runId desk) :
    Housed runId (afterCalls runId followUps calls desk) := by
  induction calls generalizing desk with
  | nil => exact h
  | cons call calls ih => exact ih h.registerFollowUps

end Dagq.FollowUps
