/-
# Dagq.Landing.Records -- what a landing writes into the queue.

A landing moves the queue by operations of it, whatever it ends with.  Recorded as done, it leaves its
run integrated with the commit, and nothing moves such a run again; when that is accepted is said in
terms of the queue alone.
-/
import Dagq.Landing.Atomic
import Dagq.Queue.Invariants

namespace Dagq.Landing

open Lib

variable {T : Type} {git : Git T} {host : Host T} {id : RunId}

/-! ## By operations of the queue -/

/-- The queue is where operations of it led. -/
def Reached (w w' : World) : Prop := ∃ ops, w'.store = queue.runFrom w.store ops

instance : IsPreorder World Reached where
  refl w := ⟨[], rfl⟩
  trans := by
    rintro w₁ w₂ w₃ ⟨ops, h⟩ ⟨ops', h'⟩
    exact ⟨ops ++ ops', by rw [h', h, Machine.runFrom_append]⟩

/-- A transaction that an operation of the queue consists of. -/
theorem runFrom_of_ok {α : Type} {op : Op} {m : Tx α} {st st' : Store} {a : α}
    (hop : op.exec = m >>= fun _ => pure ()) (h : m st = .ok (a, st')) :
    st' = queue.runFrom st [op] := by
  have hexec : op.exec st = .ok ((), st') := by
    rw [hop]
    exact Txn.bind_ok.mpr ⟨a, st', h, rfl⟩
  exact (Txn.commit_of_ok hexec).symm

theorem queueOp_reached {α : Type} {c : Call} {m : Tx α} {w : World}
    (hm : ∀ st a st', m st = .ok (a, st') → ∃ ops, st' = queue.runFrom st ops) :
    Reached w (queueOp host c m w).2 := by
  unfold queueOp
  dsimp only
  cases host.fails c with
  | some error => exact ⟨host.meanwhile c, rfl⟩
  | none =>
      cases hdone : m (queue.runFrom w.store (host.meanwhile c)) with
      | error e => exact ⟨host.meanwhile c, rfl⟩
      | ok r =>
          obtain ⟨ops, hops⟩ := hm _ r.1 r.2 hdone
          exact ⟨host.meanwhile c ++ ops, by rw [Machine.runFrom_append]; exact hops⟩

instance : Recording host Reached where
  record _ id event :=
    ⟨fun _ => queueOp_reached fun _ _ _ h =>
      ⟨[.run (.recordRuntimeEvent id event)], (Txn.commit_of_ok h).symm⟩⟩
  history _ := .of_write fun _ => ⟨[], rfl⟩

theorem land_reached {task : Task} {run : TaskRun} {main : CommitSha} {w : World} :
    Reached w (land git host task id run main w).2 := by
  have hadvance {ready : Ready T} :
      Attempt.Keeps Reached (advanceMain git host main ready.commit) := by
    have hread : Attempt.Keeps Reached (Attempt.read fun w =>
        advance git host.updating w.main main ready.commit : Work (CommitSha × Bool)) :=
      ⟨fun w => refl_of Reached w⟩
    have hwrite (moved : CommitSha × Bool) : Attempt.Keeps Reached
        (Attempt.write fun w => { w with main := moved.1 } : Work Unit) :=
      .of_write fun _ => ⟨[], rfl⟩
    unfold advanceMain
    infer_instance
  have hprepare : Attempt.Keeps Reached (prepare git host task id run main) := prepare_moves
  have hland : Attempt.Keeps Reached (land git host task id run main) := by
    unfold land
    infer_instance
  exact hland.of_run w

theorem conclude_reached {previous : RunStatus} {token : Token} {ended : Except Stop (Landed T)}
    {w : World} : Reached w (conclude host id previous token ended w).2 := by
  rcases ended with ⟨⟨code, reason⟩ | ⟨reason, receipt⟩ | ⟨error⟩⟩ | ⟨landed⟩
  · rw [conclude, recorded_world]
    exact queueOp_reached fun _ _ _ h =>
      ⟨[.run (.deferIntegration id token host.now code reason)], runFrom_of_ok rfl h⟩
  · rw [conclude, recorded_world]
    exact queueOp_reached fun _ _ _ h =>
      ⟨[.run (.failIntegration id token host.now reason)], runFrom_of_ok rfl h⟩
  · exact queueOp_reached fun _ _ _ h =>
      ⟨[.run (.abortIntegration id token host.now previous .other _)], runFrom_of_ok rfl h⟩
  · rw [conclude, recorded_world]
    exact queueOp_reached fun _ _ _ h =>
      ⟨[.run (.finishIntegration id token host.now landed.commit landed.mainBefore)],
        (Txn.commit_of_ok h).symm⟩

theorem conclude_keeps {previous : RunStatus} {token : Token} {ended : Except Stop (Landed T)}
    {w : World} : (conclude host id previous token ended w).2.main = w.main := by
  have hkeeps {α : Type} {c : Call} {m : Tx α} : (queueOp host c m w).2.main = w.main :=
    Attempt.Keeps.of_run (R := KeepsMain) w
  rcases ended with ⟨⟨code, reason⟩ | ⟨reason, receipt⟩ | ⟨error⟩⟩ | ⟨landed⟩
  · rw [conclude, recorded_world]
    exact hkeeps
  · rw [conclude, recorded_world]
    exact hkeeps
  · exact hkeeps
  · rw [conclude, recorded_world]
    exact hkeeps

/-! ## A landing that is recorded as done -/

/-- The run is integrated with the commit. -/
def IsLanded (s : Store) (id : RunId) (commit : CommitSha) : Prop :=
  ∃ row, s.runs.get? id = some row ∧ row.run.status = .integrated ∧
    row.run.resultCommit = some commit

/-- A landed run stays so. -/
theorem IsLanded.reached {w w' : World} {commit : CommitSha} (h : IsLanded w.store id commit)
    (hreached : Reached w w') : IsLanded w'.store id commit := by
  obtain ⟨row, hrow, hstatus, hcommit⟩ := h
  obtain ⟨ops, hops⟩ := hreached
  obtain ⟨row', hrow', _, hstatus', hcommit'⟩ :=
    (keepsLanded_runFrom w.store ops).run id row hrow hstatus
  exact ⟨row', hops ▸ hrow', hstatus', hcommit'.trans hcommit⟩

theorem finishIntegration_integrates {token : Token} {now : Seconds} {commit mainBefore : CommitSha}
    {st st' : Store} (h : finishIntegration id token now commit mainBefore st = .ok ((), st')) :
    IsLanded st' id commit := by
  obtain ⟨_, s₁, _, h⟩ := Txn.bind_ok.mp h
  obtain ⟨run, _, happly, h⟩ := Txn.bind_ok.mp h
  obtain ⟨row, hrow, hcommand, _, _, rfl⟩ := apply_ok.mp happly
  obtain ⟨_, _, hdrop, h⟩ := Txn.bind_ok.mp h
  obtain ⟨leases, rfl⟩ := dropLease_ok hdrop
  simp only [readTask_bind, Txn.ensure_bind, saveTask, Txn.write_bind] at h
  obtain ⟨taskRow, _, _, h⟩ := h
  obtain ⟨_, _, hintegrated, h⟩ := Txn.bind_ok.mp h
  obtain ⟨_, _, hreleased, h⟩ := Txn.bind_ok.mp h
  obtain ⟨_, _, rfl⟩ := runEvent_ok.mp hintegrated
  obtain ⟨_, _, rfl⟩ := runEvent_ok.mp hreleased
  rw [← record_ok.mp h]
  have hmoves := TaskRun.finishIntegration_ok hcommand
  exact ⟨_, (Table.get?_modify_of_get hrow id).trans (if_pos rfl), hmoves.status_eq,
    hmoves.resultCommit_eq⟩

/-- An operation of the queue that was taken. -/
theorem queueOp_ok {α : Type} {c : Call} {m : Tx α} {a : α} {w w' : World}
    (h : queueOp host c m w = (.ok a, w')) :
    m (queue.runFrom w.store (host.meanwhile c)) = .ok (a, w'.store) := by
  simp only [queueOp] at h
  split at h
  · cases h
  · split at h
    · next htaken =>
      cases h
      exact htaken
    · cases h

/-- A landing recorded as done leaves the run integrated with the commit it put on `main`. -/
theorem conclude_integrates {previous : RunStatus} {token : Token} {landed : Landed T} {w : World}
    (h : (conclude host id previous token (.ok landed) w).1 = .integrated landed) :
    IsLanded (conclude host id previous token (.ok landed) w).2.store id landed.commit := by
  rw [conclude, recorded_world]
  simp only [conclude, recorded] at h
  split at h
  · next hdone =>
    rw [hdone]
    exact finishIntegration_integrates (queueOp_ok hdone)
  · cases h

/-- What a landing needs to be recorded: its lease, its run in the slot, and the task in progress. -/
structure MayFinish (s : Store) (id : RunId) (token : Token) : Prop where
  lease : s.holder id = some token
  run : ∃ row, s.runs.get? id = some row ∧ row.run.status = .integrating ∧
    s.taskStatus row.run.taskId = some .inProgress

theorem runIsUnique_of_landed {s : Store} (h : s.CompletedIsLanded) {run : TaskRun}
    (hstatus : run.status = .integrated) (htask : s.taskStatus run.taskId = some .inProgress) :
    s.runIsUnique id run = true := by
  rw [Store.runIsUnique, Bool.not_eq_true', Table.any_eq_false_iff]
  intro id' row hrow
  -- A run of the task that is integrated has the task completed.
  have hother : ¬(row.run.status = .integrated ∧ row.run.taskId = run.taskId) := by
    rintro ⟨hintegrated, hsame⟩
    have hcompleted := (h.completed_iff run.taskId).mpr ⟨id', row, hrow, hsame, hintegrated⟩
    rw [htask] at hcompleted
    cases hcompleted
  simpa [hstatus, RunStatus.unfinished] using fun _ hintegrated hsame => hother ⟨hintegrated, hsame⟩

theorem finishIntegration_of_integrating {run : TaskRun} {commit : CommitSha}
    (h : run.status = .integrating) : ∃ run', run.finishIntegration commit = .ok run' := by
  simp [TaskRun.finishIntegration, TaskRun.requireStatus, h, require, bind, Except.bind, pure,
    Except.pure]

theorem renewLease_of_holder {s : Store} {token : Token} {now : Seconds}
    (h : s.holder id = some token) :
    ∃ leases, renewLease id token now s = .ok ((), { s with leases := leases }) := by
  refine ⟨s.leases.modify id fun lease => { lease with heartbeatAt := now }, ?_⟩
  simp [renewLease, h]

theorem dropLease_accepted (s : Store) (id : RunId) (token : Token) :
    ∃ held leases, dropLease id token s = .ok (held, { s with leases := leases }) := by
  have hdrop : dropLease id token s = .ok (decide (s.holder id = some token), { s with
      leases := if s.holder id = some token then s.leases.erase id else s.leases }) := by
    simp only [dropLease, Txn.bind_ok, Txn.read_ok, Txn.when_ok, Txn.write_ok, Txn.pure_ok]
    split <;> simp [*]
  exact ⟨_, _, hdrop⟩

theorem notices_accepted {s : Store} {row : RunRow} (taskId : Option TaskId)
    (first second third : Notice) (h : s.runs.get? id = some row) :
    ∃ s', (do
      runNotice id first
      runNotice id second
      noticeOn taskId (some id) third : Tx Unit) s = .ok ((), s') := by
  simp only [Txn.bind_ok, runEvent_ok, record_ok]
  exact ⟨_, (), _, ⟨row, h, rfl⟩, (), _, ⟨row, h, rfl⟩, rfl⟩

theorem finishIntegration_isOk_iff {s : Store} (h : s.CompletedIsLanded) {token : Token}
    (now : Seconds) (commit mainBefore : CommitSha) :
    (∃ s', finishIntegration id token now commit mainBefore s = .ok ((), s')) ↔
      MayFinish s id token := by
  constructor
  · rintro ⟨s', h⟩
    obtain ⟨_, s₁, hrenew, h⟩ := Txn.bind_ok.mp h
    obtain ⟨hlease, leases, rfl⟩ := renewLease_ok hrenew
    obtain ⟨run, _, happly, h⟩ := Txn.bind_ok.mp h
    obtain ⟨row, hrow, hcommand, _, _, rfl⟩ := apply_ok.mp happly
    obtain ⟨_, _, hdrop, h⟩ := Txn.bind_ok.mp h
    obtain ⟨leases, rfl⟩ := dropLease_ok hdrop
    simp only [readTask_bind, Txn.ensure_bind] at h
    obtain ⟨taskRow, htask, hprogress, _⟩ := h
    have hmoves := TaskRun.finishIntegration_ok hcommand
    refine ⟨hlease, row, hrow, hmoves.source_ok, ?_⟩
    rw [← hmoves.taskId_eq]
    exact (congrArg (Option.map _) htask).trans (congrArg some hprogress)
  · rintro ⟨hlease, row, hrow, hstatus, htask⟩
    obtain ⟨taskRow, htaskRow, hprogress⟩ := Option.map_eq_some_iff.mp htask
    obtain ⟨run, hcommand⟩ := finishIntegration_of_integrating hstatus
    have hmoves := TaskRun.finishIntegration_ok hcommand
    have hunique : s.runIsUnique id run = true := by
      refine runIsUnique_of_landed h hmoves.status_eq ?_
      rw [hmoves.taskId_eq]
      exact htask
    obtain ⟨leases, hrenew⟩ := renewLease_of_holder hlease
    have happly : apply id none s!"run {id} is not integrating" (·.finishIntegration commit)
        { s with leases := leases } = .ok (run, { s with
          leases := leases
          runs := s.runs.modify id fun row => { row with run := run } }) :=
      apply_ok.mpr ⟨row, hrow, hcommand, rfl, hunique, rfl⟩
    rw [finishIntegration, Txn.bind_eq hrenew, Txn.bind_eq happly]
    obtain ⟨held, leases, hdrop⟩ := dropLease_accepted
      { s with runs := s.runs.modify id fun row => { row with run := run }, leases := leases } id token
    rw [Txn.bind_eq hdrop]
    have hget : ({ s with
        runs := s.runs.modify id fun row => { row with run := run }
        leases := leases
        tasks := s.tasks.modify run.taskId fun row' =>
          { row' with task := { taskRow.task with status := .completed } } } : Store).runs.get? id
        = some { row with run := run } := (Table.get?_modify_of_get hrow id).trans (if_pos rfl)
    obtain ⟨s', hnotices⟩ := notices_accepted (some run.taskId) (.runIntegrated commit mainBefore)
      (.leaseReleased "integrated") (.taskStatusChanged .inProgress .completed none) hget
    refine ⟨s', readTask_bind.mpr ⟨taskRow, ?_, Txn.ensure_bind.mpr ⟨hprogress, hnotices⟩⟩⟩
    rw [hmoves.taskId_eq]
    exact htaskRow

/-- A landing that is over is recorded as done if it still may be. -/
theorem conclude_integrated_iff (previous : RunStatus) {token : Token} (landed : Landed T)
    {w : World}
    (h : Store.CompletedIsLanded (queue.runFrom w.store (host.meanwhile .finishIntegration))) :
    (conclude host id previous token (.ok landed) w).1 = .integrated landed ↔
      host.fails .finishIntegration = none ∧
        MayFinish (queue.runFrom w.store (host.meanwhile .finishIntegration)) id token := by
  rw [← finishIntegration_isOk_iff h host.now landed.commit landed.mainBefore]
  simp only [conclude, recorded, queueOp]
  cases host.fails .finishIntegration with
  | some error => simp
  | none =>
      cases finishIntegration id token host.now landed.commit landed.mainBefore
          (queue.runFrom w.store (host.meanwhile .finishIntegration)) with
      | error e => simp
      | ok r => exact iff_of_true rfl ⟨rfl, r.2, rfl⟩

/-- Only a landing that is over is recorded as done. -/
theorem conclude_integrated {previous : RunStatus} {token : Token} {ended : Except Stop (Landed T)}
    {landed : Landed T} {w : World}
    (h : (conclude host id previous token ended w).1 = .integrated landed) :
    ended = .ok landed := by
  rcases ended with ⟨⟨code, reason⟩ | ⟨reason, receipt⟩ | ⟨error⟩⟩ | ⟨landed'⟩
  · simp only [conclude, recorded] at h
    split at h <;> cases h
  · simp only [conclude, recorded] at h
    split at h <;> cases h
  · cases h
  · simp only [conclude, recorded] at h
    split at h
    · cases h
      rfl
    · cases h

end Dagq.Landing
