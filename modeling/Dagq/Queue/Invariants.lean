/-
# Dagq.Queue.Invariants -- what holds of the tables in every reachable state.

The promises of the board, read back at the tables: in every state that any order of operations leads
to, completed tasks are the landed ones and stay so, a claimed task waits for nothing, and the wait
graph has no cycle.  Two promises hold only under a condition on the steps, because the queue leaves
them to its callers: a run under way is owned as long as recoveries revive only owned runs, and a run
that waits to land was accepted as long as a landing is called off only to where it began.
-/
import Dagq.Queue.Steps

namespace Dagq

open Lib Relation

/-! ## Reading a promise of the board at the tables -/

namespace Store

variable {s : Store}

theorem board_run_iff {r : RunId} {v : RunView} :
    s.board.run r = some v ↔ ∃ row, s.runs.get? r = some row ∧ row.view (s.runEventsOf r) = v := by
  simp [board]

theorem taskStatus_iff {t : TaskId} {status : TaskStatus} :
    s.taskStatus t = some status ↔ ∃ v, s.board.task t = some v ∧ v.status = status := by
  simp [taskStatus, board, TaskRow.view]

/-- The verdict of a closed goal. -/
def goalVerdict (s : Store) (g : GoalId) : Option GoalVerdict :=
  (s.goals.get? g).bind fun row => row.goal.verdict

theorem goalVerdict_iff {g : GoalId} {verdict : GoalVerdict} :
    s.goalVerdict g = some verdict ↔ s.board.goal g = some (some verdict) := by
  simp [goalVerdict, board, Option.bind_eq_some_iff]

end Store

/-- Nothing is on the board of an empty queue. -/
theorem board_init : queue.init.board = .empty := by
  simp only [queue_init, Store.board, Board.empty, Board.mk.injEq]
  refine ⟨rfl, rfl, rfl, rfl, ?_, ?_⟩ <;> simp [Store.init]

/-- A promise that no step of the board breaks holds in every reachable state. -/
theorem board_invariant {I : Board → Prop} (hinit : I .empty)
    (hstep : ∀ b b', I b → Board.Step .any b b' → I b') (ops : List Op) :
    I (queue.run ops).board := by
  have href : ∀ s op, ReflTransGen (Board.Step .any) s.board (queue.next s op).board :=
    fun s op => queue_refines (op.respects_any s)
  apply Machine.view_invariant href hstep
  rw [board_init]
  exact hinit

/-- A promise that no step breaks under a policy holds at the end of every run whose operations respect
it. -/
theorem board_invariant_of_respects {P : Board.Policy} {I : Board → Prop} (hinit : I .empty)
    (hstep : ∀ b b', I b → Board.Step P b b' → I b') {ok : Store → Op → Prop}
    (hok : ∀ s op, ok s op → op.Respects P s) {ops : List Op}
    (h : queue.Meets ok queue.init ops) : I (queue.run ops).board := by
  have href : ∀ s op, ok s op →
      ReflTransGen (Board.Step P) s.board (queue.next s op).board :=
    fun s op hop => queue_refines (hok s op hop)
  apply Machine.view_invariant_of_meets href hstep h
  rw [board_init]
  exact hinit

/-! ## A run under way is owned -/

/-- Every run under way is the latest run of a task in progress and the only one of it under way. -/
def Store.RunsOwned (s : Store) : Prop :=
  ∀ id row, s.runs.get? id = some row → row.run.status.unfinished = true →
    s.taskStatus row.run.taskId = some .inProgress ∧ s.latestRun row.run.taskId = some id ∧
      ∀ id' row', s.runs.get? id' = some row' → row'.run.taskId = row.run.taskId →
        row'.run.status.unfinished = true → id' = id

theorem Store.RunsOwned.of_board {s : Store} (h : s.board.Owned) : s.RunsOwned := by
  intro id row hrow hs
  have hview := board_run hrow
  obtain ⟨hprogress, hlatest⟩ := h id _ hview hs
  refine ⟨Store.taskStatus_iff.mpr hprogress, hlatest, ?_⟩
  intro id' row' hrow' htask hs'
  exact h.unique hview (board_run hrow') hs hs' htask

/-- Whether the run is the latest one of a task in progress, as a recovery round asks when it
begins. -/
def Store.isOwned (s : Store) (id : RunId) : Bool :=
  (s.runs.get? id).any fun row => s.isLatestInProgress id row.run

/-- A recovery brings no run back to life but an owned one. -/
def Board.Policy.reviveOwned : Board.Policy where
  revive b r := ∀ v, b.run r = some v → b.IsOwned r v
  callOff _ _ := True

theorem Store.isOwned_board {s : Store} {id : RunId} (h : s.isOwned id = true) :
    Board.Policy.reviveOwned.revive s.board id := by
  intro v hv
  obtain ⟨row, hrow, rfl⟩ := board_run_iff.mp hv
  simp only [isOwned, hrow, Option.any_some, isLatestInProgress, Bool.and_eq_true,
    decide_eq_true_eq] at h
  exact ⟨taskStatus_iff.mp h.1, h.2⟩

/-- When a recovery round, or a person's answer to it, resumes the run, the run is still the latest one
of a task in progress. -/
def Op.revivesOwned (s : Store) : Op → Bool
  | .run (.finishTriage id token _ action _) =>
      !(action.instruction?.isSome && s.holder id = some token && s.isRevivable id) || s.isOwned id
  | .run (.decideTriage id askId answer _ alive now) =>
      !(answer = "resume" && s.isDecidable id askId alive now && s.isRevivable id) || s.isOwned id
  | _ => true

theorem Op.respects_reviveOwned {s : Store} {op : Op} (h : op.revivesOwned s = true) :
    op.Respects .reviveOwned s := by
  unfold Op.Respects
  split
  · exact fun _ _ => trivial
  · exact fun _ _ _ => trivial
  · intro hresume hholder hrevivable
    apply Store.isOwned_board
    simpa [Op.revivesOwned, hresume, hholder, hrevivable] using h
  · intro hresume hdecidable hrevivable
    apply Store.isOwned_board
    simpa [Op.revivesOwned, hresume, hdecidable, hrevivable] using h
  · trivial

/-- In every state that operations lead to whose resumes are of owned runs only, every run under way is
owned. -/
theorem unfinished_runs_owned (ops : List Op)
    (h : queue.Meets (fun s op => op.revivesOwned s = true) queue.init ops) :
    (queue.run ops).RunsOwned := by
  apply Store.RunsOwned.of_board
  refine board_invariant_of_respects Board.Owned.empty (fun _ _ hb hstep => hb.step ?_ hstep)
    (fun _ _ => Op.respects_reviveOwned) h
  exact fun _ _ hrevive => hrevive

/-- A task is claimed, its supervisor dies, and a recovery round begins for the interrupted run. -/
def interruptedRun : List Op :=
  [.task (.add { title := "land" }), .task (.transition 1 .bypassReview),
    .run (.claimForSupervisor 1 7 [1] 5 50 0), .run (.recoverRun 1 0 100),
    .run (.beginTriage 1 6 60 (fun _ => false) 200 false)]

/-- The recovery round resumes the run. -/
def resumeRun : Op := .run (.finishTriage 1 6 210 (.resume "go on") [])

theorem unfinished_runs_owned_resumed :
    ((queue.run (interruptedRun ++ [resumeRun])).runs.get? 1).map (fun row => row.run.status)
        = some .needsSession ∧
      (queue.run (interruptedRun ++ [resumeRun])).RunsOwned :=
  ⟨by decide +kernel, unfinished_runs_owned _ (by decide +kernel)⟩

/-- The task is canceled before the recovery round resumes its run: the run waits for a session of a
canceled task. -/
theorem unfinished_run_of_canceled_task :
    ¬(queue.run (interruptedRun ++ [.task (.transition 1 .cancel), resumeRun])).RunsOwned := by
  intro h
  generalize hs : queue.run (interruptedRun ++ [.task (.transition 1 .cancel), resumeRun]) = s at h
  have hrun : (s.runs.get? 1).map (fun row => (row.run.taskId, row.run.status))
      = some (1, .needsSession) := by
    rw [← hs]
    decide +kernel
  have htask : s.taskStatus 1 = some .canceled := by
    rw [← hs]
    decide +kernel
  obtain ⟨row, hrow, hview⟩ := Option.map_eq_some_iff.mp hrun
  obtain ⟨hid, hstatus⟩ := Prod.mk.inj hview
  have howned := (h 1 row hrow (by rw [hstatus]; rfl)).1
  rw [hid, htask] at howned
  cases howned

/-! ## Completed tasks are the landed ones -/

/-- A task is completed exactly when a run of it is integrated; that run is the only one, and its
result commit is recorded. -/
structure Store.CompletedIsLanded (s : Store) : Prop where
  completed_iff : ∀ t, s.taskStatus t = some .completed ↔
    ∃ id row, s.runs.get? id = some row ∧ row.run.taskId = t ∧ row.run.status = .integrated
  unique : ∀ id id' row row', s.runs.get? id = some row → s.runs.get? id' = some row' →
    row.run.taskId = row'.run.taskId → row.run.status = .integrated →
      row'.run.status = .integrated → id = id'
  resultCommit : ∀ id row, s.runs.get? id = some row → row.run.status = .integrated →
    row.run.resultCommit.isSome = true

theorem Store.CompletedIsLanded.of_board {s : Store} (h : s.board.Landed) :
    s.CompletedIsLanded := by
  constructor
  · intro t
    rw [taskStatus_iff]
    constructor
    · rintro ⟨w, hw, hs⟩
      obtain ⟨id, v, hv, ht, hvs⟩ := h.integrated_of_completed hw hs
      obtain ⟨row, hrow, rfl⟩ := board_run_iff.mp hv
      exact ⟨id, row, hrow, ht, hvs⟩
    · rintro ⟨id, row, hrow, rfl, hs⟩
      exact h.completed_of_integrated (board_run hrow) hs
  · intro id id' row row' hrow hrow' ht hs hs'
    exact h.unique (board_run hrow) (board_run hrow') ht hs hs'
  · intro id row hrow hs
    exact h.commit (board_run hrow) hs

/-- What is completed or integrated in `s` is so in `s'`. -/
structure Store.KeepsLanded (s s' : Store) : Prop where
  task : ∀ t, s.taskStatus t = some .completed → s'.taskStatus t = some .completed
  run : ∀ id row, s.runs.get? id = some row → row.run.status = .integrated →
    ∃ row', s'.runs.get? id = some row' ∧ row'.run.taskId = row.run.taskId ∧
      row'.run.status = .integrated ∧ row'.run.resultCommit = row.run.resultCommit

/-- What no step of the board undoes, no further operation undoes. -/
theorem board_stays {I : Board → Prop} (hstep : ∀ b b', I b → Board.Step .any b b' → I b')
    {s : Store} (hs : I s.board) (ops : List Op) : I (queue.runFrom s ops).board := by
  have href : ∀ s op, ReflTransGen (Board.Step .any) s.board (queue.next s op).board :=
    fun s op => queue_refines (op.respects_any s)
  exact Machine.view_invariant href hstep hs ops

theorem keepsLanded_runFrom (s : Store) (ops : List Op) : s.KeepsLanded (queue.runFrom s ops) := by
  constructor
  · intro t ht
    rw [Store.taskStatus_iff] at ht ⊢
    refine board_stays (I := fun b => ∃ w, b.task t = some w ∧ w.status = .completed) ?_ ht ops
    rintro b b' ⟨w, hw, hs⟩ hstep
    exact hstep.completed hw hs
  · intro id row hrow hs
    have hstays := board_stays
      (I := fun b => b.run id = some (row.view (s.runEventsOf id)))
      (fun b b' hb hstep => hstep.integrated hb hs) (Store.board_run hrow) ops
    obtain ⟨row', hrow', hview⟩ := Store.board_run_iff.mp hstays
    exact ⟨row', hrow', congrArg RunView.taskId hview, (congrArg RunView.status hview).trans hs,
      congrArg RunView.resultCommit hview⟩

/-- In every reachable state the completed tasks are the landed ones, and no further operation changes
that of any of them. -/
theorem completed_tasks_landed (ops more : List Op) :
    (queue.run ops).CompletedIsLanded ∧
      (queue.run ops).KeepsLanded (queue.run (ops ++ more)) := by
  constructor
  · apply Store.CompletedIsLanded.of_board
    exact board_invariant Board.Landed.empty (fun _ _ hb h => hb.step h) ops
  · rw [Machine.run_append]
    exact keepsLanded_runFrom _ more

/-! ## A claimed task waits for nothing -/

/-- A task in progress or completed has its predecessors completed and the goals it depends on closed
as achieved. -/
def Store.ClaimedWaitsForNothing (s : Store) : Prop :=
  ∀ t status, s.taskStatus t = some status → status = .inProgress ∨ status = .completed →
    (∀ p, (t, p) ∈ s.taskDependencies → s.taskStatus p = some .completed) ∧
      ∀ g, (t, g) ∈ s.taskGoalDependencies → s.goalVerdict g = some .achieved

theorem claimed_tasks_satisfied (ops : List Op) : (queue.run ops).ClaimedWaitsForNothing := by
  have hboard := board_invariant (I := fun b => b.WellFormed ∧ b.Satisfied)
    ⟨Board.WellFormed.empty, Board.Satisfied.empty⟩
    (fun _ _ hb h => ⟨hb.1.step h, hb.2.step hb.1 h⟩) ops
  intro t status ht hs
  obtain ⟨v, hv, rfl⟩ := Store.taskStatus_iff.mp ht
  obtain ⟨hneeds, hgoals⟩ := hboard.2 t v hv hs
  exact ⟨fun p hp => Store.taskStatus_iff.mpr (hneeds p hp),
    fun g hg => Store.goalVerdict_iff.mpr (hgoals g hg)⟩

/-! ## Nobody waits for itself -/

theorem waits_end (ops : List Op) : Graph.Acyclic (Graph.Edge (queue.run ops).waitEdges) := by
  have hboard := board_invariant (I := fun b => b.WellFormed ∧ b.Ordered)
    ⟨Board.WellFormed.empty, Board.Ordered.empty⟩
    (fun _ _ hb h => ⟨hb.1.step h, hb.2.step hb.1 h⟩) ops
  exact hboard.2.mono fun _ _ hxy => Store.edge_waitEdges.mp hxy

theorem wait_graph_acyclic (ops : List Op) :
    Graph.Acyclic (Graph.Edge (queue.run ops).waitEdges) :=
  waits_end ops

/-! ## A landing called off -/

/-- The status the latest landing of the run began from. -/
def Store.landedFrom (s : Store) (id : RunId) : Option RunStatus :=
  lastLandingSource (s.runEventsOf id)

/-- Recovering a run in a landing leaves it where aborting the landing would have, exactly when the
landing began from `awaitingIntegration`. -/
def Store.RecoversAsAborted (s : Store) : Prop :=
  ∀ id row source, s.runs.get? id = some row → row.run.status = .integrating →
    s.landedFrom id = some source →
      ∀ checked now token later code message recovered aborted s₁ s₂,
        recoverRun id checked now s = .ok (recovered, s₁) →
        abortIntegration id token later source code message s = .ok (aborted, s₂) →
          (recovered.status = aborted.status ↔ source = .awaitingIntegration)

/-- Every run that waits to land has a result commit, the one its latest validation accepted. -/
def Store.AwaitingAccepted (s : Store) : Prop :=
  ∀ id row, s.runs.get? id = some row → row.run.status = .awaitingIntegration →
    row.run.resultCommit.isSome = true ∧
      lastValidation (s.runEventsOf id) = some row.run.resultCommit

/-- A recovery of a run in a landing, and an abort to `awaitingIntegration`, is of a landing that began
from there. -/
def Op.callsOffToSource (s : Store) : Op → Bool
  | .run (.recoverRun id checked now) =>
      !(s.isRecoverable id checked now && s.isIntegrating id)
        || s.landedFrom id = some .awaitingIntegration
  | .run (.abortIntegration id token _ revertTo _ _) =>
      !(revertTo = .awaitingIntegration && s.holder id = some token && s.isIntegrating id)
        || s.landedFrom id = some .awaitingIntegration
  | _ => true

/-- A landing is called off to `awaitingIntegration` only when it began from there. -/
def Board.Policy.callOffToSource : Board.Policy where
  revive _ _ := True
  callOff b r := ∀ v, b.run r = some v → v.landedFrom = some .awaitingIntegration

theorem Store.landedFrom_board {s : Store} {id : RunId}
    (h : s.landedFrom id = some .awaitingIntegration) :
    Board.Policy.callOffToSource.callOff s.board id := by
  intro v hv
  obtain ⟨row, _, rfl⟩ := board_run_iff.mp hv
  exact h

theorem Op.respects_callOffToSource {s : Store} {op : Op} (h : op.callsOffToSource s = true) :
    op.Respects .callOffToSource s := by
  unfold Op.Respects
  split
  · intro hrecoverable hintegrating
    apply Store.landedFrom_board
    simpa [Op.callsOffToSource, hrecoverable, hintegrating] using h
  · intro hto hholder hintegrating
    apply Store.landedFrom_board
    simpa [Op.callsOffToSource, hto, hholder, hintegrating] using h
  · exact fun _ _ _ => trivial
  · exact fun _ _ _ => trivial
  · trivial

/-- Where a recovery leaves a run in a landing, whatever the landing began from. -/
theorem recoverRun_integrating {s s' : Store} {id : RunId} {row : RunRow} {checked : Nat}
    {now : Seconds} {run : TaskRun} (hrow : s.runs.get? id = some row)
    (hlanding : row.run.status = .integrating) (h : recoverRun id checked now s = .ok (run, s')) :
    run.status = .awaitingIntegration := by
  simp only [recoverRun, readLease, Txn.read_bind, Txn.ensure_bind, readRun_bind] at h
  obtain ⟨_, _, row', hrow', h⟩ := h
  obtain ⟨run', _, happly, rest⟩ := Txn.bind_ok.mp h
  obtain ⟨row'', hrow'', hcommand, _, _, rfl⟩ := apply_ok.mp happly
  rw [hrow] at hrow''
  cases hrow''
  have hmoves := TaskRun.interrupt_ok hcommand
  have hrun : run' = run := by
    obtain ⟨_, _, _, rest⟩ := Txn.bind_ok.mp rest
    obtain ⟨_, _, _, hpure⟩ := Txn.bind_ok.mp rest
    exact (Txn.pure_ok.mp hpure).1
  rw [← hrun, hmoves.status_eq, hlanding]
  rfl

/-- Where an abort leaves it: where the caller says. -/
theorem abortIntegration_status {s s' : Store} {id : RunId} {token : Token} {now : Seconds}
    {revertTo : RunStatus} {code : ReasonCode} {message : String} {run : TaskRun}
    (h : abortIntegration id token now revertTo code message s = .ok (run, s')) :
    run.status = revertTo := by
  obtain ⟨_, _, _, h⟩ := Txn.bind_ok.mp h
  obtain ⟨run', _, happly, rest⟩ := Txn.bind_ok.mp h
  obtain ⟨_, _, hcommand, _, _, _⟩ := apply_ok.mp happly
  have hrun : run' = run := by
    obtain ⟨_, _, _, rest⟩ := Txn.bind_ok.mp rest
    obtain ⟨_, _, _, rest⟩ := Txn.bind_ok.mp rest
    obtain ⟨_, _, _, hpure⟩ := Txn.bind_ok.mp rest
    exact (Txn.pure_ok.mp hpure).1
  rw [← hrun]
  exact (TaskRun.abortIntegration_ok hcommand).2.status_eq

theorem recoversAsAborted (s : Store) : s.RecoversAsAborted := by
  intro id row source hrow hlanding _ checked now token later code message recovered aborted s₁ s₂
    hrecover habort
  rw [recoverRun_integrating hrow hlanding hrecover, abortIntegration_status habort]
  exact eq_comm

theorem Store.AwaitingAccepted.of_board {s : Store} (h : s.board.Accepted) :
    s.AwaitingAccepted := by
  intro id row hrow hs
  exact h id _ (board_run hrow) (.inl hs)

/-- A landing under way began from one of the two statuses a run may land from. -/
def Store.LandingsBegun (s : Store) : Prop :=
  ∀ id row, s.runs.get? id = some row → row.run.status = .integrating →
    s.landedFrom id = some .awaitingIntegration ∨ s.landedFrom id = some .needsSession

theorem landings_begun (ops : List Op) : (queue.run ops).LandingsBegun := by
  have hboard := board_invariant Board.Slotted.empty (fun _ _ hb h => hb.step h) ops
  intro id row hrow hs
  exact hboard id _ (Store.board_run hrow) hs

/-- In every reachable state recovering a landing and aborting it agree exactly when the landing began
from `awaitingIntegration`; and where only such landings are called off to it, every run that waits to
land was accepted. -/
theorem landing_called_off (ops : List Op) :
    (queue.run ops).LandingsBegun ∧ (queue.run ops).RecoversAsAborted ∧
      (queue.Meets (fun s op => op.callsOffToSource s = true) queue.init ops →
        (queue.run ops).AwaitingAccepted) := by
  refine ⟨landings_begun ops, recoversAsAborted _, fun h => ?_⟩
  apply Store.AwaitingAccepted.of_board
  refine board_invariant_of_respects Board.Accepted.empty (fun _ _ hb hstep => hb.step ?_ hstep)
    (fun _ _ => Op.respects_callOffToSource) h
  exact fun _ _ hcallOff => hcallOff

/-- A run whose validation accepted commit 9 lands: `integrate` takes the slot. -/
def landingOfAcceptedRun : List Op :=
  [.task (.add { title := "land" }), .task (.transition 1 .bypassReview),
    .run (.claimForSupervisor 1 7 [1] 5 50 0),
    .run (.planRun 1 5 10 ⟨"/repo", "/runs/1", "run-1", "/worktree/1", "/runs/1/receipt", "/runs/1/log"⟩),
    .run (.finishSupervisionLive 1 5 20),
    .run (.finishValidation 1 5 30 { accepted := true, resultCommit := some 9 }),
    .run (.releaseLease 1 5), .run (.beginIntegration 1 8 80 40 7)]

/-- A run sent back to a session by a recovery round lands before it had one: `integrate` takes the
slot. -/
def landingOfParkedRun : List Op :=
  interruptedRun ++ [resumeRun, .run (.releaseLease 1 6), .run (.beginIntegration 1 8 80 300 7)]

/-- The process that lands dies, and the run is recovered. -/
def recoverLanding : Op := .run (.recoverRun 1 0 400)

theorem landing_called_off_accepted :
    ((queue.run (landingOfAcceptedRun ++ [recoverLanding])).runs.get? 1).map
        (fun row => row.run.status) = some .awaitingIntegration ∧
      (queue.run (landingOfAcceptedRun ++ [recoverLanding])).AwaitingAccepted :=
  ⟨by decide +kernel, (landing_called_off _).2.2 (by decide +kernel)⟩

/-- Aborted, the landing leaves the run `needsSession`; recovered, it leaves it waiting to land,
although no validation ever looked at it. -/
theorem recovered_landing_unaccepted :
    ((queue.run (landingOfParkedRun ++ [.run (.abortIntegration 1 8 310 .needsSession .other "")])
        ).runs.get? 1).map (fun row => row.run.status) = some .needsSession ∧
      ((queue.run (landingOfParkedRun ++ [recoverLanding])).runs.get? 1).map
        (fun row => row.run.status) = some .awaitingIntegration ∧
      ¬(queue.run (landingOfParkedRun ++ [recoverLanding])).AwaitingAccepted := by
  refine ⟨by decide +kernel, by decide +kernel, fun h => ?_⟩
  generalize hs : queue.run (landingOfParkedRun ++ [recoverLanding]) = s at h
  have hrun : (s.runs.get? 1).map (fun row => (row.run.status, row.run.resultCommit))
      = some (.awaitingIntegration, none) := by
    rw [← hs]
    decide +kernel
  obtain ⟨row, hrow, hview⟩ := Option.map_eq_some_iff.mp hrun
  obtain ⟨hstatus, hcommit⟩ := Prod.mk.inj hview
  have haccepted := (h 1 row hrow hstatus).1
  rw [hcommit] at haccepted
  cases haccepted

end Dagq
