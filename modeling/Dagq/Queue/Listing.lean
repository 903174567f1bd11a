/-
# Dagq.Queue.Listing -- what `graph` and `candidates` say, against what a claim does.

In every reachable queue nobody waits for itself, so the graph is there, and `candidates`, `graph` and
every claim use one order.  What a task still waits for is another matter: the graph takes a predecessor
that is not unfinished for done, and the ready query asks that it completed.  A canceled predecessor is
neither.
-/
import Dagq.Store.DependencyGraph
import Dagq.Queue.Invariants

namespace Dagq

open Lib

/-! ## What a waiting task waits for -/

/-- A ready task outside a draft goal that owns no unfinished run. -/
structure Store.AwaitsClaim (s : Store) (t : TaskId) (row : TaskRow) : Prop where
  found : s.tasks.get? t = some row
  ready : row.task.status = .ready
  outside : row.task.goalId.any s.goalIsDraft = false
  idle : s.hasUnfinishedRun t = false

/-- Some predecessor was canceled; the others are completed or canceled too, and every goal the task
depends on is achieved. -/
structure Store.DeadEnd (s : Store) (t : TaskId) : Prop where
  canceled : ∃ p, (t, p) ∈ s.taskDependencies ∧ s.taskStatus p = some .canceled
  terminal : ∀ p status, (t, p) ∈ s.taskDependencies → s.taskStatus p = some status →
    status.isTerminal = true
  achieved : ∀ g goal, (t, g) ∈ s.taskGoalDependencies → s.goals.get? g = some goal →
    goal.goal.verdict = some .achieved

namespace Store.AwaitsClaim

variable {s : Store} {t : TaskId} {row : TaskRow}

/-- The ready query asks for completed predecessors and achieved goals. -/
theorem isCandidate_iff (h : s.AwaitsClaim t row) : s.isCandidate t row = true ↔
    (∀ p status, (t, p) ∈ s.taskDependencies → s.taskStatus p = some status → status = .completed) ∧
      ∀ g goal, (t, g) ∈ s.taskGoalDependencies → s.goals.get? g = some goal →
        goal.goal.verdict = some .achieved := by
  -- A dependency blocks when its task is known and not completed.
  have hneeds : (s.taskDependencies.any fun e => e.1 = t &&
      (s.tasks.get? e.2).any fun p => p.task.status != .completed) = false ↔
      ∀ p status, (t, p) ∈ s.taskDependencies → s.taskStatus p = some status →
        status = .completed := by
    rw [List.any_eq_false]
    constructor
    · intro hall p status hp hstatus
      obtain ⟨row', hrow', rfl⟩ := Option.map_eq_some_iff.mp hstatus
      simpa [hrow'] using hall (t, p) hp
    · rintro hall ⟨t', p⟩ hp hbad
      simp only [Bool.and_eq_true, decide_eq_true_eq, Option.any_eq_true, bne_iff_ne] at hbad
      obtain ⟨rfl, row', hrow', hne⟩ := hbad
      exact hne (hall p _ hp (by rw [taskStatus, hrow']; rfl))
  -- A goal blocks when it is known and not achieved.
  have hgoals : (s.taskGoalDependencies.any fun e => e.1 = t &&
      ((s.goals.get? e.2).isSome && !s.goalIsAchieved e.2)) = false ↔
      ∀ g goal, (t, g) ∈ s.taskGoalDependencies → s.goals.get? g = some goal →
        goal.goal.verdict = some .achieved := by
    rw [List.any_eq_false]
    constructor
    · intro hall g goal hg hgoal
      simpa [goalIsAchieved, hgoal] using hall (t, g) hg
    · rintro hall ⟨t', g⟩ hg hbad
      simp only [Bool.and_eq_true, decide_eq_true_eq, Bool.not_eq_true', goalIsAchieved] at hbad
      obtain ⟨rfl, hsome, hbad⟩ := hbad
      obtain ⟨goal, hgoal⟩ := Option.isSome_iff_exists.mp hsome
      simp [hgoal, hall g goal hg hgoal] at hbad
  rw [Store.isCandidate, h.outside, h.idle, decide_eq_true h.ready]
  simp only [Bool.not_false, Bool.true_and, Bool.and_true, Bool.and_eq_true, Bool.not_eq_true',
    hneeds, hgoals]

/-- The graph asks for predecessors that are not unfinished and for achieved goals. -/
theorem readyAfter_eq_nil :
    Listing.readyAfter (Listing.readGraphInput s) (Listing.graphTask s t row) = [] ↔
      (∀ p status, (t, p) ∈ s.taskDependencies → s.taskStatus p = some status →
        status.isTerminal = true) ∧
      ∀ g goal, (t, g) ∈ s.taskGoalDependencies → s.goals.get? g = some goal →
        goal.goal.verdict = some .achieved := by
  rw [Listing.readyAfter, List.append_eq_nil_iff, List.map_eq_nil_iff, List.map_eq_nil_iff,
    List.filter_eq_nil_iff, List.filter_eq_nil_iff]
  -- The listing looks at open tasks only, so it asks less of them: that they have ended.
  refine and_congr ?_ ?_
  · constructor
    · intro hall p status hp hstatus
      obtain ⟨row', hrow', rfl⟩ := Option.map_eq_some_iff.mp hstatus
      by_contra hopen
      refine hall p (Listing.mem_dependsOn.mpr hp) (decide_eq_true ?_)
      exact Listing.mem_openTasks.mpr ⟨row', hrow', by simpa using hopen⟩
    · intro hall p hp hopen
      obtain ⟨row', hrow', hterminal⟩ := Listing.mem_openTasks.mp (of_decide_eq_true hopen)
      have hstatus : s.taskStatus p = some row'.task.status := by
        rw [taskStatus, hrow']
        rfl
      rw [hall p _ (Listing.mem_dependsOn.mp hp) hstatus] at hterminal
      cases hterminal
  · constructor
    · intro hall g goal hg hgoal
      have hmem : ⟨g, goal.goal.verdict⟩ ∈ (Listing.graphTask s t row).goalDependencies :=
        Listing.mem_goalDependencies.mpr ⟨hg, goal, hgoal, rfl⟩
      simpa [Listing.GraphGoalDependency.isMet] using hall _ hmem
    · intro hall d hd hunmet
      obtain ⟨hneeds, goal, hgoal, hverdict⟩ := Listing.mem_goalDependencies.mp hd
      have hachieved := hall d.goalId goal hneeds hgoal
      rw [hverdict] at hachieved
      simp [Listing.GraphGoalDependency.isMet, hachieved] at hunmet

/-- Claimable and released differ exactly in a canceled predecessor. -/
theorem agree_iff (h : s.AwaitsClaim t row) :
    (s.isCandidate t row = true ↔
      Listing.readyAfter (Listing.readGraphInput s) (Listing.graphTask s t row) = []) ↔
        ¬s.DeadEnd t := by
  rw [h.isCandidate_iff, readyAfter_eq_nil]
  constructor
  · rintro hagree ⟨⟨p, hp, hcanceled⟩, hterminal, hachieved⟩
    exact absurd ((hagree.mpr ⟨hterminal, hachieved⟩).1 p _ hp hcanceled) (by decide)
  · intro hlive
    constructor
    · rintro ⟨hcompleted, hachieved⟩
      refine ⟨fun p status hp hstatus => ?_, hachieved⟩
      rw [hcompleted p status hp hstatus]
      rfl
    · rintro ⟨hterminal, hachieved⟩
      refine ⟨fun p status hp hstatus => ?_, hachieved⟩
      have hends := hterminal p status hp hstatus
      cases status with
      | completed => rfl
      | canceled => exact absurd ⟨⟨p, hp, hstatus⟩, hterminal, hachieved⟩ hlive
      | _ => cases hends

end Store.AwaitsClaim

/-! ## The listing of a reachable queue -/

/-- The graph of a reachable queue is there, with one node for each unfinished task, and a task that
could be claimed but for what it waits for is a candidate just when its node waits for nothing -- unless
a predecessor was canceled and nothing else keeps it waiting. -/
theorem released_iff_candidate (ops : List Op) (fuel : Nat)
    (hfuel : (Listing.readGraphInput (queue.run ops)).tasks.length < fuel) :
    ∃ graph rows,
      Listing.dependencyGraph (Listing.readGraphInput (queue.run ops)) fuel none = some graph ∧
      Listing.candidates fuel (queue.run ops) = some rows ∧
      ∀ t row, (queue.run ops).AwaitsClaim t row →
        (∃ node ∈ graph.tasks, node.id = t) ∧
        ∀ node ∈ graph.tasks, node.id = t →
          (((t, row) ∈ rows ↔ node.readyAfter = []) ↔ ¬(queue.run ops).DeadEnd t) := by
  obtain ⟨rows, hrows, hperm, _⟩ := Listing.candidates_eq (waits_end ops) hfuel
  obtain ⟨critical, hcritical⟩ :=
    Option.isSome_iff_exists.mp (Listing.critical_ends (waits_end ops) none hfuel)
  refine ⟨_, rows, by rw [Listing.dependencyGraph, hcritical]; rfl, hrows, fun t row h => ?_⟩
  have hopen : row.task.status.isTerminal = false := by
    rw [h.ready]
    rfl
  constructor
  · -- The task is open, so the listing of everything has its node.
    have htask : Listing.graphTask (queue.run ops) t row ∈
        (Listing.readGraphInput (queue.run ops)).tasks :=
      Listing.mem_tasks.mpr ⟨row, h.found, hopen, rfl⟩
    refine ⟨Listing.graphNode (Listing.readGraphInput (queue.run ops))
      (Listing.graphTask (queue.run ops) t row), ?_, rfl⟩
    refine List.mem_map_of_mem (List.mem_filter.mpr ⟨htask, decide_eq_true ?_⟩)
    exact mem_sorted.mpr (List.mem_map_of_mem (List.mem_filter.mpr ⟨htask, rfl⟩))
  · intro node hnode hid
    obtain ⟨task, htask, rfl⟩ := List.mem_map.mp hnode
    obtain ⟨row', hrow', _, heq⟩ := Listing.mem_tasks.mp (List.mem_of_mem_filter htask)
    have hid : task.id = t := hid
    rw [hid] at hrow' heq
    have hrow : row' = row := Option.some_injective _ (hrow'.symm.trans h.found)
    rw [heq, hrow, hperm.mem_iff, Listing.mem_readyRows, ← h.agree_iff, and_iff_right h.found]
    rfl

/-- The second task depends on the first, which is canceled when both are ready. -/
def canceledFirst : List Op :=
  [.task (.add { title := "first" }), .task (.add { title := "second", dependencies := [1] }),
    .task (.transition 1 .bypassReview), .task (.transition 2 .bypassReview),
    .task (.transition 1 .cancel)]

theorem released_iff_candidate_canceledFirst :
    (Listing.readGraphInput (queue.run canceledFirst)).tasks.length < 2 ∧ ∃ graph rows,
      Listing.dependencyGraph (Listing.readGraphInput (queue.run canceledFirst)) 2 none =
        some graph ∧
      Listing.candidates 2 (queue.run canceledFirst) = some rows ∧
      ∀ t row, (queue.run canceledFirst).AwaitsClaim t row →
        (∃ node ∈ graph.tasks, node.id = t) ∧
        ∀ node ∈ graph.tasks, node.id = t →
          (((t, row) ∈ rows ↔ node.readyAfter = []) ↔ ¬(queue.run canceledFirst).DeadEnd t) :=
  ⟨by decide +kernel, released_iff_candidate canceledFirst 2 (by decide +kernel)⟩

/-- The second one waits for nothing, and is no candidate. -/
theorem released_and_no_candidate :
    ¬∀ (ops : List Op) (fuel : Nat) (graph : Listing.DependencyGraph)
        (rows : List (TaskId × TaskRow)),
      Listing.dependencyGraph (Listing.readGraphInput (queue.run ops)) fuel none = some graph →
      Listing.candidates fuel (queue.run ops) = some rows →
      ∀ t row, (queue.run ops).AwaitsClaim t row →
        ∀ node ∈ graph.tasks, node.id = t → ((t, row) ∈ rows ↔ node.readyAfter = []) := by
  intro h
  -- The listing shows the task with nothing to wait for, the claim finds no candidate.
  have hgraph : (Listing.dependencyGraph (Listing.readGraphInput (queue.run canceledFirst)) 2 none).map
      (fun graph => graph.tasks.map fun node => (node.id, node.readyAfter)) = some [(2, [])] := by
    decide +kernel
  have hrows : (Listing.candidates 2 (queue.run canceledFirst)).map List.length = some 0 := by
    decide +kernel
  have hrow : ((queue.run canceledFirst).tasks.get? 2).any (fun row =>
      row.task.status = .ready && row.task.goalId.isNone) = true ∧
        (queue.run canceledFirst).hasUnfinishedRun 2 = false := by
    decide +kernel
  obtain ⟨graph, hsome, hnodes⟩ := Option.map_eq_some_iff.mp hgraph
  obtain ⟨rows, hlist, hlength⟩ := Option.map_eq_some_iff.mp hrows
  obtain ⟨hready, hidle⟩ := hrow
  obtain ⟨row, hfound, hready⟩ := (Option.any_eq_true _ _).mp hready
  simp only [Bool.and_eq_true, decide_eq_true_eq, Option.isNone_iff_eq_none] at hready
  have hawaits : (queue.run canceledFirst).AwaitsClaim 2 row :=
    ⟨hfound, hready.1, by rw [hready.2]; rfl, hidle⟩
  obtain ⟨node, hnode, hpair⟩ := List.mem_map.mp (hnodes ▸ List.mem_singleton_self (2, []))
  obtain ⟨hid, hafter⟩ := Prod.mk.inj hpair
  have hin := (h canceledFirst 2 graph rows hsome hlist 2 row hawaits node hnode hid).mpr hafter
  rw [List.length_eq_zero_iff.mp hlength] at hin
  cases hin

/-! ## The claim -/

/-- The task a claim takes: the first of `order` that is listed, else the first listed. -/
def firstListed (order listed : List TaskId) : Option TaskId :=
  order.find? (· ∈ listed) <|> listed.head?

theorem firstListed_eq_none {order listed : List TaskId} :
    firstListed order listed = none ↔ listed = [] := by
  unfold firstListed
  cases listed with
  | nil => simp
  | cons id rest => cases order.find? (· ∈ id :: rest) <;> simp

theorem firstListed_mem {order listed : List TaskId} {t : TaskId}
    (h : firstListed order listed = some t) : t ∈ listed := by
  unfold firstListed at h
  cases hfind : order.find? (· ∈ listed) with
  | some id =>
      rw [hfind] at h
      cases h
      simpa using List.find?_some hfind
  | none =>
      rw [hfind] at h
      exact List.mem_of_head? h

section Claim

variable {s : Store} {order : List TaskId} {t : TaskId} {runId : RunId} {baseCommit : CommitSha}

/-- A claim takes the first listed task, or the first of its own order that is listed. -/
theorem Store.nextClaim_eq : s.nextClaim order = firstListed order s.claimOrder := by
  have hready : s.claimOrder.Perm s.readyTasks := by
    refine (List.perm_ext_iff_of_nodup ?_ sorted_nodup).mpr fun id => ?_
    · exact Listing.claimOrder_perm.nodup_iff.mpr Listing.readyRows_nodup
    · exact (Listing.claimOrder_perm.mem_iff).trans Listing.mem_readyTasks.symm
  have hfind (ids : List TaskId) :
      ids.find? (· ∈ s.readyTasks) = ids.find? (· ∈ s.claimOrder) := by
    simp only [hready.mem_iff]
  rw [nextClaim, firstListed, hfind, hfind]
  cases hclaims : s.claimOrder with
  | nil =>
      have hnil : s.readyTasks = [] := (hclaims ▸ hready).nil_eq.symm
      rw [hnil]
      rfl
  | cons id rest =>
      rw [List.find?_cons_of_pos (by simp) (l := rest) (a := id)]
      cases order.find? (· ∈ id :: rest) <;> rfl

theorem claimTask_none (h : s.nextClaim order = none) :
    claimTask runId baseCommit order s = .error .notTaken := by
  rw [claimTask, Txn.bind_eq (Txn.read_ok.mpr ⟨rfl, rfl⟩), h]
  rfl

/-- The claim of a candidate, up to the insertion of its run. -/
theorem claimTask_eq (h : s.nextClaim order = some t) :
    ∃ row, s.tasks.get? t = some row ∧ s.isCandidate t row = true ∧
      claimTask runId baseCommit order s =
        (do
          saveTask t { row.task with status := .inProgress }
          insertRun runId { taskId := t, status := .claimed, baseCommit := baseCommit }
          runNotice runId .runClaimed
          return t : Tx TaskId) s := by
  obtain ⟨row, hrow, hcandidate⟩ := Store.nextClaim_isCandidate h
  obtain ⟨hready, _⟩ := Store.isCandidate_iff hcandidate
  refine ⟨row, hrow, hcandidate, ?_⟩
  rw [claimTask, Txn.bind_eq (Txn.read_ok.mpr ⟨rfl, rfl⟩), h, Txn.bind_eq (Txn.found_ok.mpr ⟨rfl, rfl⟩),
    Txn.bind_eq (readTask_ok.mpr ⟨hrow, rfl⟩),
    Txn.bind_eq (domain_ok.mpr ⟨Task.claim_ok.mpr ⟨hready, rfl⟩, rfl⟩)]
  rfl

/-- A claim under a run id that is in use is refused. -/
theorem claimTask_taken (h : s.nextClaim order = some t) (hrun : s.runs.get? runId ≠ none) :
    claimTask runId baseCommit order s = .error (.constraint "task_runs.id") := by
  obtain ⟨row, _, _, heq⟩ := claimTask_eq h
  rw [heq, saveTask, Txn.bind_eq ((Txn.write_ok (u := ())).mpr rfl)]
  refine Txn.bind_error ?_
  rw [insertRun, Txn.bind_eq (Txn.read_ok.mpr ⟨rfl, rfl⟩)]
  refine Txn.bind_error ?_
  rw [Txn.ensure, if_neg (by simpa using hrun)]
  rfl

/-- A claim under a fresh run id is accepted. -/
theorem claimTask_some (baseCommit : CommitSha) (h : s.nextClaim order = some t)
    (hrun : s.runs.get? runId = none) :
    ∃ row, s.tasks.get? t = some row ∧ s.isCandidate t row = true ∧
      claimTask runId baseCommit order s = .ok (t, { s with
        tasks := s.tasks.modify t fun row' =>
          { row' with task := { row.task with status := .inProgress } }
        runs := s.runs.push runId
          { run := { taskId := t, status := .claimed, baseCommit := baseCommit } }
        events := s.events ++ [⟨some t, none, some runId, .notice .runClaimed⟩] }) := by
  obtain ⟨row, hrow, hcandidate, heq⟩ := claimTask_eq h
  refine ⟨row, hrow, hcandidate, ?_⟩
  have hunique : s.runIsUnique runId { taskId := t, status := .claimed, baseCommit := baseCommit } =
      true := by
    simp only [Store.isCandidate, Bool.and_eq_true, Bool.not_eq_true'] at hcandidate
    rw [Store.runIsUnique, Bool.not_eq_true', Table.any_eq_false_iff]
    intro id run hid
    by_cases htask : run.run.taskId = t
    · have hdone := Store.hasUnfinishedRun_eq_false hcandidate.2 hid htask
      simp [hdone]
    · simp [htask]
  have hpushed (run : RunRow) : (s.runs.push runId run).get? runId = some run := by
    rw [Table.get?_push hrun, if_pos rfl]
  rw [heq, saveTask, Txn.bind_eq ((Txn.write_ok (u := ())).mpr rfl)]
  refine (Txn.bind_eq ((insertRun_ok (u := ())).mpr ⟨?_, ?_, rfl⟩)).trans ?_
  · exact hrun
  · exact hunique
  · exact Txn.bind_eq ((runEvent_ok (u := ())).mpr ⟨_, hpushed _, rfl⟩)

end Claim

/-- In a reachable queue a claim takes the first listed task, or the first of its own order that is
listed; nothing is taken exactly when nothing is listed; and only the task taken and its new run
change. -/
theorem claim_takes_first (ops : List Op) (fuel : Nat)
    (hfuel : (Listing.readGraphInput (queue.run ops)).tasks.length < fuel) :
    ∃ rows, Listing.candidates fuel (queue.run ops) = some rows ∧
      ((Listing.dependencyGraph (Listing.readGraphInput (queue.run ops)) fuel none).map
        (·.candidates) = some (rows.map Prod.fst)) ∧
      (∀ t row, (t, row) ∈ rows ↔ (queue.run ops).tasks.get? t = some row ∧
        (queue.run ops).isCandidate t row = true) ∧
      ∀ runId baseCommit order,
        (claimTask runId baseCommit order (queue.run ops) = .error .notTaken ↔ rows = []) ∧
        ((queue.run ops).runs.get? runId = none → rows ≠ [] →
          ∃ r, claimTask runId baseCommit order (queue.run ops) = .ok r) ∧
        ∀ t s', claimTask runId baseCommit order (queue.run ops) = .ok (t, s') →
          firstListed order (rows.map Prod.fst) = some t ∧ t ∈ rows.map Prod.fst ∧
          s'.taskStatus t = some .inProgress ∧
          (∃ run, s'.runs.get? runId = some run ∧ run.run.taskId = t ∧ run.run.status = .claimed) ∧
          (∀ u, u ≠ t → s'.tasks.get? u = (queue.run ops).tasks.get? u) ∧
          ∀ r, r ≠ runId → s'.runs.get? r = (queue.run ops).runs.get? r := by
  obtain ⟨rows, hrows, hperm, hids⟩ := Listing.candidates_eq (waits_end ops) hfuel
  -- The claim and the listing order the same candidates the same way.
  have hnext (order : List TaskId) :
      (queue.run ops).nextClaim order = firstListed order (rows.map Prod.fst) := by
    rw [Store.nextClaim_eq, hids]
  have hnone (order : List TaskId) : (queue.run ops).nextClaim order = none ↔ rows = [] := by
    rw [hnext, firstListed_eq_none, List.map_eq_nil_iff]
  refine ⟨rows, hrows, ?_, fun t row => ?_, fun runId baseCommit order => ⟨?_, ?_, ?_⟩⟩
  · rw [hids]
    exact Listing.claimOrder_eq (waits_end ops) hfuel
  · rw [hperm.mem_iff, Listing.mem_readyRows]
  · rw [← hnone order]
    refine ⟨fun h => ?_, claimTask_none⟩
    cases hclaim : (queue.run ops).nextClaim order with
    | none => rfl
    | some t =>
        by_cases hrun : (queue.run ops).runs.get? runId = none
        · obtain ⟨_, _, _, heq⟩ := claimTask_some baseCommit hclaim hrun
          rw [heq] at h
          cases h
        · rw [claimTask_taken hclaim hrun] at h
          cases h
  · intro hrun hlisted
    obtain ⟨t, hclaim⟩ := Option.ne_none_iff_exists'.mp (mt (hnone order).mp hlisted)
    obtain ⟨_, _, _, heq⟩ := claimTask_some baseCommit hclaim hrun
    exact ⟨_, heq⟩
  · intro t s' h
    cases hclaim : (queue.run ops).nextClaim order with
    | none =>
        rw [claimTask_none hclaim] at h
        cases h
    | some taken =>
        by_cases hrun : (queue.run ops).runs.get? runId = none
        · obtain ⟨row, hrow, _, heq⟩ := claimTask_some baseCommit hclaim hrun
          rw [heq] at h
          cases h
          have hfirst := (hnext order).symm.trans hclaim
          -- It writes the task it takes and the run it opens, and no other.
          refine ⟨hfirst, firstListed_mem hfirst, ?_,
            ⟨{ run := { taskId := t, status := .claimed, baseCommit := baseCommit } }, ?_, rfl, rfl⟩,
            fun u hu => ?_, fun r hr => ?_⟩
          · simp [Store.taskStatus, hrow]
          · simp [Table.get?_push hrun]
          · simp [hu]
          · simp [Table.get?_push hrun, hr]
        · rw [claimTask_taken hclaim hrun] at h
          cases h

/-- Two tasks are ready, and the claim with an order of its own takes the second. -/
def twoReady : List Op :=
  [.task (.add { title := "first" }), .task (.add { title := "second" }),
    .task (.transition 1 .bypassReview), .task (.transition 2 .bypassReview)]

theorem claim_takes_first_twoReady :
    (Listing.readGraphInput (queue.run twoReady)).tasks.length < 3 ∧
    ∃ rows s', Listing.candidates 3 (queue.run twoReady) = some rows ∧ rows ≠ [] ∧
      claimTask 7 0 [5, 2] (queue.run twoReady) = .ok (2, s') ∧
      s'.taskStatus 2 = some .inProgress ∧ s'.taskStatus 1 = some .ready := by
  refine ⟨by decide +kernel, ?_⟩
  obtain ⟨rows, hrows, _, hmem, hclaim⟩ := claim_takes_first twoReady 3 (by decide +kernel)
  obtain ⟨_, haccepted, htaken⟩ := hclaim 7 0 [5, 2]
  -- Both tasks are listed, and there is no task 5.
  have hlisted (id : TaskId) : id ∈ rows.map Prod.fst ↔
      ∃ row, (queue.run twoReady).tasks.get? id = some row ∧
        (queue.run twoReady).isCandidate id row = true := by
    rw [List.mem_map]
    constructor
    · rintro ⟨⟨t, row⟩, hrow, rfl⟩
      exact ⟨row, (hmem t row).mp hrow⟩
    · rintro ⟨row, hrow⟩
      exact ⟨(id, row), (hmem id row).mpr hrow, rfl⟩
  have hsecond : 2 ∈ rows.map Prod.fst :=
    (hlisted 2).mpr ⟨_, rfl, by decide⟩
  have hfifth : 5 ∉ rows.map Prod.fst := by
    intro h
    obtain ⟨_, hrow, _⟩ := (hlisted 5).mp h
    cases hrow
  have hne : rows ≠ [] := by
    rintro rfl
    cases hsecond
  obtain ⟨⟨t, s'⟩, hok⟩ := haccepted rfl hne
  obtain ⟨hfirst, _, hprogress, _, hothers, _⟩ := htaken t s' hok
  obtain rfl : 2 = t := by simpa [firstListed, hsecond, hfifth] using hfirst
  refine ⟨rows, s', hrows, hne, hok, hprogress, ?_⟩
  rw [Store.taskStatus, hothers 1 (by decide)]
  rfl

end Dagq
