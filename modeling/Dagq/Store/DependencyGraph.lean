/-
# Dagq.Store.DependencyGraph -- the unfinished tasks as `graph` and `candidates` show them.

One read of the queue gives the unfinished tasks with their predecessors and goal dependencies, and the
claimable ids.  The graph is computed from that read alone: who blocks whom, how many tasks each one
releases, what each one still waits for, and the order of the claims.  The critical chain looks out for
no cycle, so the graph is there only where following it ends.
-/
import Dagq.Store.Claims
import Dagq.Lib.Search
import Dagq.Lib.Walk

namespace Dagq.Listing

open Lib

/-! ## One read of the queue -/

/-- A goal a task depends on and its verdict, absent while the goal is not closed. -/
structure GraphGoalDependency where
  goalId : GoalId
  verdict : Option GoalVerdict

/-- Only a goal closed as achieved releases the tasks that wait for it. -/
def GraphGoalDependency.isMet (dependency : GraphGoalDependency) : Bool :=
  dependency.verdict = some .achieved

/-- What an unfinished task still waits for. -/
inductive WaitFor
  | task (id : TaskId)
  | goal (goal : GoalId)
  deriving DecidableEq

/-- An unfinished task as the graph reads it. -/
structure GraphTask where
  id : TaskId
  status : TaskStatus
  priority : Priority
  title : String
  goalId : Option GoalId
  goalStatus : Option GoalStatus
  dependsOn : List TaskId
  goalDependencies : List GraphGoalDependency

/-- The unfinished tasks in id order and the ids of the claimable ones. -/
structure GraphInput where
  tasks : List GraphTask
  candidates : List TaskId

/-- An unfinished task as the graph shows it. -/
structure GraphNode where
  id : TaskId
  status : TaskStatus
  priority : Priority
  effectivePriority : Priority
  title : String
  goalId : Option GoalId
  goalStatus : Option GoalStatus
  dependsOn : List TaskId
  goalDependencies : List GoalId
  /-- The unfinished tasks that depend on it, or on a goal of it that is not closed. -/
  blocks : List TaskId
  /-- How many unfinished tasks wait for it. -/
  unblocks : Nat
  /-- The unfinished predecessors, then the goals not closed as achieved. -/
  readyAfter : List WaitFor

structure DependencyGraph where
  tasks : List GraphNode
  /-- The claimable tasks in the order of the claims. -/
  candidates : List TaskId
  critical : List TaskId

/-- Rows in id order. -/
def byId {ν : Type} (rows : List (Nat × ν)) : List (Nat × ν) :=
  rows.insertionSort fun a b => a.1 ≤ b.1

/-- The claimable tasks with their rows, in id order. -/
def readyRows (s : Store) : List (TaskId × TaskRow) := byId (s.tasks.select s.isCandidate)

def graphTask (s : Store) (id : TaskId) (row : TaskRow) : GraphTask where
  id := id
  status := row.task.status
  priority := row.task.priority
  title := row.task.title
  goalId := row.task.goalId
  goalStatus := row.task.goalId.bind fun g => (s.goals.get? g).map fun row => row.goal.status
  dependsOn := sorted ((s.taskDependencies.filter fun e => e.1 = id).map Prod.snd)
  goalDependencies :=
    (sorted ((s.taskGoalDependencies.filter fun e => e.1 = id).map Prod.snd)).filterMap fun g =>
      (s.goals.get? g).map fun row => { goalId := g, verdict := row.goal.verdict }

/-- Not completed and not canceled. -/
def isUnfinished (_ : TaskId) (row : TaskRow) : Bool :=
  row.task.status ∈ [.draft, .submitted, .ready, .inProgress]

/-- The read of `graph`, `candidates` and every claim. -/
def readGraphInput (s : Store) : GraphInput where
  tasks := (byId (s.tasks.select isUnfinished)).map fun r => graphTask s r.1 r.2
  candidates := (readyRows s).map Prod.fst

/-! ## The graph -/

/-- The higher of two priorities. -/
def highest (a b : Priority) : Priority := if a.asI64 ≤ b.asI64 then b else a

/-- The highest of the task's own priority and those of the ready tasks outside a draft goal that wait
for it. -/
def effectivePriority (own : Priority) (waiters : List GraphTask) : Priority :=
  ((waiters.filter fun waiter =>
    waiter.status = .ready && waiter.goalStatus != some .draft).map (·.priority)).foldl highest own

/-- Where a task stands in the claim order. -/
structure ClaimRank where
  priority : Priority
  unblocks : Nat
  id : TaskId

/-- Highest priority first, then most tasks released, then lowest id. -/
def ClaimRank.le (a b : ClaimRank) : Bool :=
  if a.priority ≠ b.priority then b.priority.asI64 < a.priority.asI64
  else if a.unblocks ≠ b.unblocks then b.unblocks < a.unblocks
  else a.id ≤ b.id

section Graph

variable (input : GraphInput)

def openTasks : List TaskId := input.tasks.map (·.id)

def members (goalId : GoalId) : List TaskId :=
  (input.tasks.filter fun task => task.goalId = some goalId).map (·.id)

/-- Whether `task` waits for `id` directly: it is a predecessor, or a member of a goal that is not
closed. -/
def waitsOn (id : TaskId) (task : GraphTask) : Bool :=
  (id ∈ task.dependsOn && id ∈ openTasks input)
    || task.goalDependencies.any fun d => d.verdict.isNone && id ∈ members input d.goalId

/-- The unfinished tasks that depend on the task directly, ascending. -/
def direct (id : TaskId) : List TaskId :=
  sorted ((input.tasks.filter (waitsOn input id)).map (·.id))

theorem direct_subset (id : TaskId) : ∀ w ∈ direct input id, w ∈ openTasks input := by
  intro w hw
  obtain ⟨task, htask, rfl⟩ := List.mem_map.mp (mem_sorted.mp hw)
  exact List.mem_map_of_mem (List.mem_of_mem_filter htask)

/-- The last dependent is taken first. -/
def push (id : TaskId) : List TaskId := (direct input id).reverse

/-- As many steps as the search for the waiters of a task can take. -/
def reachFuel (id : TaskId) : Nat :=
  (push input id).length + Search.unspent (push input) (openTasks input) [] + 1

theorem reach_ends (id : TaskId) :
    (Search.search (push input) (reachFuel input id) [] (push input id)).isSome := by
  have hpush (a : TaskId) : ∀ b ∈ push input a, b ∈ openTasks input := fun b hb =>
    direct_subset input a b (List.mem_reverse.mp hb)
  exact Search.search_isSome hpush (hpush id) (Nat.lt_succ_self _)

/-- The unfinished tasks that wait for the task, ascending. -/
def reached (id : TaskId) : List TaskId :=
  sorted ((Search.search (push input) (reachFuel input id) [] (push input id)).get
    (reach_ends input id))

/-- The search finds what the direct dependents lead to. -/
theorem mem_reached_direct {id w : TaskId} : w ∈ reached input id ↔
    Relation.TransGen (fun a b => b ∈ direct input a) id w := by
  have hsearch : Search.search (push input) (reachFuel input id) [] (push input id) = some _ :=
    (Option.some_get (reach_ends _ id)).symm
  have hedge : Search.Edge (push input) = fun a b => b ∈ direct input a := by
    funext a b
    rw [Search.Edge, push, List.mem_reverse]
  rw [reached, mem_sorted, Search.mem_search_iff hsearch, hedge, Relation.TransGen.head'_iff]
  simp only [push, List.mem_reverse]

def byIdOf (id : TaskId) : Option GraphTask := input.tasks.find? fun task => task.id = id

/-- How many unfinished tasks wait for it. -/
def count (id : TaskId) : Nat := if (byIdOf input id).isSome then (reached input id).length else 0

def effective (id : TaskId) : Priority :=
  match byIdOf input id with
  | some task => effectivePriority task.priority ((reached input id).filterMap (byIdOf input))
  | none => .normal

def claimRank (id : TaskId) : ClaimRank :=
  { priority := effective input id, unblocks := count input id, id := id }

/-- The one with the most tasks waiting, the lowest id on a tie. -/
def mostUnblocks (ids : List TaskId) : Option TaskId :=
  (ids.insertionSort fun a b =>
    count input b < count input a ∨ (count input a = count input b ∧ a ≤ b)).head?

def inGoal (goalId : Option GoalId) (task : GraphTask) : Bool :=
  goalId.isNone || task.goalId = goalId

def goalIds (goalId : Option GoalId) : List TaskId :=
  sorted ((input.tasks.filter (inGoal goalId)).map (·.id))

/-- Where the critical chain starts: nowhere when no task blocks another. -/
def firstStep (goalId : Option GoalId) : Option TaskId :=
  (mostUnblocks input (goalIds input goalId)).filter fun id => count input id ≠ 0

/-- The next task of the critical chain. -/
def nextStep (id : TaskId) : Option TaskId := mostUnblocks input (direct input id)

def readyAfter (task : GraphTask) : List WaitFor :=
  (task.dependsOn.filter (· ∈ openTasks input)).map .task
    ++ (task.goalDependencies.filter (!·.isMet)).map fun dependency => .goal dependency.goalId

def graphNode (task : GraphTask) : GraphNode where
  id := task.id
  status := task.status
  priority := task.priority
  effectivePriority := effective input task.id
  title := task.title
  goalId := task.goalId
  goalStatus := task.goalStatus
  dependsOn := task.dependsOn
  goalDependencies := task.goalDependencies.map (·.goalId)
  blocks := direct input task.id
  unblocks := count input task.id
  readyAfter := readyAfter input task

/-- The claimable tasks in the order of the claims. -/
def graphCandidates (goalId : Option GoalId) : List TaskId :=
  (input.candidates.filter fun id => goalId.isNone || id ∈ goalIds input goalId).insertionSort
    fun a b => (claimRank input a).le (claimRank input b)

/-- The dependency view, or `none` when `fuel` steps along the critical chain are not enough. -/
def dependencyGraph (fuel : Nat) (goalId : Option GoalId) : Option DependencyGraph := do
  let critical ← Walk.follow (nextStep input) fuel (firstStep input goalId)
  return {
    tasks := (input.tasks.filter fun task => task.id ∈ goalIds input goalId).map (graphNode input)
    candidates := graphCandidates input goalId
    critical := critical }

end Graph

/-! ## Candidates -/

/-- The claimable ids in claim order. -/
def claimOrder (fuel : Nat) (s : Store) : Option (List TaskId) :=
  (dependencyGraph (readGraphInput s) fuel none).map (·.candidates)

/-- Where `id` stands in `order`; what is not there comes first. -/
def positionKey (order : List TaskId) (id : TaskId) : Nat :=
  if id ∈ order then order.idxOf id + 1 else 0

/-- The claimable tasks, in the order of the claims. -/
def candidates (fuel : Nat) (s : Store) : Option (List (TaskId × TaskRow)) := do
  let order ← claimOrder fuel s
  return (readyRows s).insertionSort fun a b => positionKey order a.1 ≤ positionKey order b.1

/-! ## The read, row by row -/

section Read

variable {s : Store} {id w : TaskId}

theorem mem_byId {ν : Type} {rows : List (Nat × ν)} {r : Nat × ν} : r ∈ byId rows ↔ r ∈ rows :=
  List.mem_insertionSort _

theorem mem_readyRows {row : TaskRow} :
    (id, row) ∈ readyRows s ↔ s.tasks.get? id = some row ∧ s.isCandidate id row = true := by
  rw [readyRows, mem_byId, Table.mem_select]

/-- Sorting leaves the keys of a table distinct. -/
theorem byId_select_nodup {ν : Type} {t : Table Nat ν} {p : Nat → ν → Bool} :
    ((byId (t.select p)).map Prod.fst).Nodup :=
  ((List.perm_insertionSort _ _).map Prod.fst).nodup_iff.mpr Table.select_keys_nodup

theorem readyRows_nodup : ((readyRows s).map Prod.fst).Nodup := byId_select_nodup

theorem mem_readyTasks : id ∈ s.readyTasks ↔ id ∈ (readyRows s).map Prod.fst := by
  simp only [Store.readyTasks, mem_sorted, List.mem_map, readyRows, mem_byId]

theorem isUnfinished_iff {row : TaskRow} :
    isUnfinished id row = !row.task.status.isTerminal := by
  unfold isUnfinished
  cases row.task.status <;> rfl

theorem mem_tasks {task : GraphTask} : task ∈ (readGraphInput s).tasks ↔
    ∃ row, s.tasks.get? task.id = some row ∧ row.task.status.isTerminal = false ∧
      task = graphTask s task.id row := by
  simp only [readGraphInput, List.mem_map, mem_byId]
  constructor
  · rintro ⟨⟨id, row⟩, hmem, rfl⟩
    obtain ⟨hrow, hopen⟩ := Table.mem_select.mp hmem
    exact ⟨row, hrow, by simpa [isUnfinished_iff] using hopen, rfl⟩
  · rintro ⟨row, hrow, hopen, htask⟩
    refine ⟨(task.id, row), Table.mem_select.mpr ⟨hrow, ?_⟩, htask.symm⟩
    simpa [isUnfinished_iff] using hopen

theorem mem_openTasks : id ∈ openTasks (readGraphInput s) ↔
    ∃ row, s.tasks.get? id = some row ∧ row.task.status.isTerminal = false := by
  rw [openTasks, List.mem_map]
  constructor
  · rintro ⟨task, htask, rfl⟩
    obtain ⟨row, hrow, hopen, _⟩ := mem_tasks.mp htask
    exact ⟨row, hrow, hopen⟩
  · rintro ⟨row, hrow, hopen⟩
    exact ⟨graphTask s id row, mem_tasks.mpr ⟨row, hrow, hopen, rfl⟩, rfl⟩

theorem byIdOf_eq_some {task : GraphTask} : byIdOf (readGraphInput s) id = some task ↔
    ∃ row, s.tasks.get? id = some row ∧ row.task.status.isTerminal = false ∧
      task = graphTask s id row := by
  have hfound {t : GraphTask} (h : byIdOf (readGraphInput s) id = some t) :
      t ∈ (readGraphInput s).tasks ∧ t.id = id :=
    ⟨List.mem_of_find?_eq_some h, by simpa using List.find?_some h⟩
  constructor
  · intro h
    obtain ⟨hmem, rfl⟩ := hfound h
    exact mem_tasks.mp hmem
  · rintro ⟨row, hrow, hopen, rfl⟩
    have hmem : graphTask s id row ∈ (readGraphInput s).tasks :=
      mem_tasks.mpr ⟨row, hrow, hopen, rfl⟩
    obtain ⟨task, htask⟩ : ∃ task, byIdOf (readGraphInput s) id = some task := by
      rw [← Option.isSome_iff_exists, byIdOf, List.find?_isSome]
      exact ⟨_, hmem, decide_eq_true rfl⟩
    obtain ⟨hin, rfl⟩ := hfound htask
    obtain ⟨row', hrow', _, heq⟩ := mem_tasks.mp hin
    rw [hrow] at hrow'
    cases hrow'
    rw [htask, ← heq]

/-- `w` waits for `id` directly: as a successor, or for a goal of `id` that is not closed. -/
structure Blocks (s : Store) (id w : TaskId) : Prop where
  task : id ∈ openTasks (readGraphInput s)
  waiter : w ∈ openTasks (readGraphInput s)
  waits : (w, id) ∈ s.taskDependencies ∨ ∃ row g goal, s.tasks.get? id = some row ∧
    row.task.goalId = some g ∧ (w, g) ∈ s.taskGoalDependencies ∧ s.goals.get? g = some goal ∧
      goal.goal.verdict = none

theorem mem_dependsOn {row : TaskRow} {p : TaskId} :
    p ∈ (graphTask s id row).dependsOn ↔ (id, p) ∈ s.taskDependencies := by
  simp [graphTask, mem_sorted]

theorem mem_goalDependencies {row : TaskRow} {d : GraphGoalDependency} :
    d ∈ (graphTask s id row).goalDependencies ↔ (id, d.goalId) ∈ s.taskGoalDependencies ∧
      ∃ goal, s.goals.get? d.goalId = some goal ∧ goal.goal.verdict = d.verdict := by
  simp only [graphTask, List.mem_filterMap, mem_sorted, List.mem_map, List.mem_filter,
    decide_eq_true_eq, Option.map_eq_some_iff]
  constructor
  · rintro ⟨_, ⟨⟨_, g⟩, ⟨hmem, rfl⟩, rfl⟩, goal, hgoal, rfl⟩
    exact ⟨hmem, goal, hgoal, rfl⟩
  · rintro ⟨hmem, goal, hgoal, hverdict⟩
    refine ⟨d.goalId, ⟨(id, d.goalId), ⟨hmem, rfl⟩, rfl⟩, goal, hgoal, ?_⟩
    rw [hverdict]

theorem mem_members {g : GoalId} : id ∈ members (readGraphInput s) g ↔
    ∃ row, s.tasks.get? id = some row ∧ row.task.status.isTerminal = false ∧
      row.task.goalId = some g := by
  simp only [members, List.mem_map, List.mem_filter, decide_eq_true_eq]
  constructor
  · rintro ⟨task, ⟨htask, hgoal⟩, rfl⟩
    obtain ⟨row, hrow, hopen, heq⟩ := mem_tasks.mp htask
    rw [heq] at hgoal
    exact ⟨row, hrow, hopen, hgoal⟩
  · rintro ⟨row, hrow, hopen, hgoal⟩
    exact ⟨graphTask s id row, ⟨mem_tasks.mpr ⟨row, hrow, hopen, rfl⟩, hgoal⟩, rfl⟩

theorem mem_direct : w ∈ direct (readGraphInput s) id ↔ Blocks s id w := by
  simp only [direct, mem_sorted, List.mem_map, List.mem_filter, waitsOn, Bool.or_eq_true,
    Bool.and_eq_true, decide_eq_true_eq, List.any_eq_true, Option.isNone_iff_eq_none]
  constructor
  · rintro ⟨task, ⟨htask, hwaits⟩, rfl⟩
    obtain ⟨row, hrow, hopen, heq⟩ := mem_tasks.mp htask
    have hwaiter : task.id ∈ openTasks (readGraphInput s) := mem_openTasks.mpr ⟨row, hrow, hopen⟩
    rw [heq] at hwaits
    rcases hwaits with ⟨hdep, hid⟩ | ⟨d, hd, hverdict, hmember⟩
    · exact ⟨hid, hwaiter, .inl (mem_dependsOn.mp hdep)⟩
    · obtain ⟨hneeds, goal, hgoal, hsame⟩ := mem_goalDependencies.mp hd
      obtain ⟨row', hrow', hopen', hin⟩ := mem_members.mp hmember
      exact ⟨mem_openTasks.mpr ⟨row', hrow', hopen'⟩, hwaiter,
        .inr ⟨row', d.goalId, goal, hrow', hin, hneeds, hgoal, hsame.trans hverdict⟩⟩
  · rintro ⟨hid, hwaiter, hwaits⟩
    obtain ⟨row, hrow, hopen⟩ := mem_openTasks.mp hwaiter
    refine ⟨graphTask s w row, ⟨mem_tasks.mpr ⟨row, hrow, hopen, rfl⟩, ?_⟩, rfl⟩
    rcases hwaits with hdep | ⟨row', g, goal, hrow', hin, hneeds, hgoal, hnone⟩
    · exact .inl ⟨mem_dependsOn.mpr hdep, hid⟩
    · obtain ⟨row₂, hrow₂, hopen₂⟩ := mem_openTasks.mp hid
      rw [hrow'] at hrow₂
      cases hrow₂
      exact .inr ⟨⟨g, none⟩, mem_goalDependencies.mpr ⟨hneeds, goal, hgoal, hnone⟩, rfl,
        mem_members.mpr ⟨row', hrow', hopen₂, hin⟩⟩

/-- The waiters of a task are what its dependents lead to. -/
theorem mem_reached : w ∈ reached (readGraphInput s) id ↔ Relation.TransGen (Blocks s) id w := by
  have hedge : (fun a b => b ∈ direct (readGraphInput s) a) = Blocks s := by
    funext a b
    exact propext mem_direct
  rw [mem_reached_direct, hedge]

end Read

/-! ## The order of the claims -/

theorem foldl_max_congr {xs ys : List Nat} (h : ∀ x, x ∈ xs ↔ x ∈ ys) (a : Nat) :
    xs.foldl max a = ys.foldl max a := by
  refine Nat.le_antisymm (foldl_max_le_iff.mpr ?_) (foldl_max_le_iff.mpr ?_)
  · obtain ⟨ha, hys⟩ := foldl_max_le_iff.mp (Nat.le_refl (ys.foldl max a))
    exact ⟨ha, fun x hx => hys x ((h x).mp hx)⟩
  · obtain ⟨ha, hxs⟩ := foldl_max_le_iff.mp (Nat.le_refl (xs.foldl max a))
    exact ⟨ha, fun x hx => hxs x ((h x).mpr hx)⟩

theorem asI64_foldl_highest (ps : List Priority) (own : Priority) :
    (ps.foldl highest own).asI64 = (ps.map Priority.asI64).foldl max own.asI64 := by
  induction ps generalizing own with
  | nil => rfl
  | cons p ps ih =>
      have hmax : (highest own p).asI64 = max own.asI64 p.asI64 := by
        rw [highest]
        split
        · exact (Nat.max_eq_right ‹_›).symm
        · exact (Nat.max_eq_left (by omega)).symm
      rw [List.foldl_cons, ih, hmax]
      rfl

theorem asI64_inj {a b : Priority} (h : a.asI64 = b.asI64) : a = b := by
  cases a <;> cases b <;> first | rfl | cases h

section Order

variable {s : Store} {id w : TaskId}

/-- A task of the claim order, field by field. -/
theorem mem_graphTasks {task : Dagq.GraphTask} (h : task ∈ s.graphTasks) :
    ∃ row, s.tasks.get? task.id = some row ∧ row.task.status.isTerminal = false ∧
      task.status = row.task.status ∧ task.priority = row.task.priority ∧
      task.goalId = row.task.goalId ∧
      task.goalStatus = (graphTask s task.id row).goalStatus ∧
      (∀ p, p ∈ task.dependsOn ↔ (task.id, p) ∈ s.taskDependencies) ∧
      ∀ g, g ∈ task.goalWaits ↔ (task.id, g) ∈ s.taskGoalDependencies ∧
        ∃ goal, s.goals.get? g = some goal ∧ goal.goal.verdict = none := by
  obtain ⟨⟨id, row⟩, hmem, rfl⟩ := List.mem_map.mp h
  obtain ⟨hrow, hopen⟩ := Table.mem_select.mp hmem
  refine ⟨row, hrow, by simpa using hopen, rfl, rfl, rfl, rfl, fun p => ?_, fun g => ?_⟩
  · simp
  · simp [Option.any_eq_true]

theorem exists_graphTask (h : id ∈ openTasks (readGraphInput s)) :
    ∃ task ∈ s.graphTasks, task.id = id := by
  obtain ⟨row, hrow, hopen⟩ := mem_openTasks.mp h
  refine ⟨_, List.mem_map_of_mem (Table.mem_select.mpr ⟨hrow, ?_⟩), rfl⟩
  simpa using hopen

theorem mem_openTasks_of_graphTask {task : Dagq.GraphTask} (h : task ∈ s.graphTasks) :
    task.id ∈ openTasks (readGraphInput s) := by
  obtain ⟨row, hrow, hopen, _⟩ := mem_graphTasks h
  exact mem_openTasks.mpr ⟨row, hrow, hopen⟩

theorem graphTasks_nodup : (s.graphTasks.map Dagq.GraphTask.id).Nodup := by
  rw [Store.graphTasks, List.map_map]
  exact Table.select_keys_nodup

/-- The claim order reads who blocks whom as the graph does. -/
theorem blocks_iff {task waiter : Dagq.GraphTask} (htask : task ∈ s.graphTasks)
    (hwaiter : waiter ∈ s.graphTasks) :
    task.blocks waiter = true ↔ Blocks s task.id waiter.id := by
  obtain ⟨row, hrow, _, _, _, hgoalId, _, _, _⟩ := mem_graphTasks htask
  obtain ⟨_, _, _, _, _, _, _, hdeps, hgoals⟩ := mem_graphTasks hwaiter
  simp only [Dagq.GraphTask.blocks, Bool.or_eq_true, decide_eq_true_eq, Option.any_eq_true, hdeps,
    hgoals, hgoalId]
  constructor
  · intro h
    refine ⟨mem_openTasks_of_graphTask htask, mem_openTasks_of_graphTask hwaiter, ?_⟩
    refine h.imp_right ?_
    rintro ⟨g, hg, hneeds, goal, hgoal, hnone⟩
    exact ⟨row, g, goal, hrow, hg, hneeds, hgoal, hnone⟩
  · rintro ⟨_, _, hwaits⟩
    refine hwaits.imp_right ?_
    rintro ⟨row', g, goal, hrow', hg, hneeds, hgoal, hnone⟩
    rw [hrow] at hrow'
    cases hrow'
    exact ⟨g, hg, hneeds, goal, hgoal, hnone⟩

theorem edge_edges {a b : TaskId} :
    Graph.Edge (Dagq.GraphTask.edges s.graphTasks) a b ↔ Blocks s a b := by
  simp only [Graph.Edge, Dagq.GraphTask.edges, List.mem_flatMap, List.mem_map, List.mem_filter]
  constructor
  · rintro ⟨task, htask, waiter, ⟨hwaiter, hblocks⟩, heq⟩
    cases heq
    exact (blocks_iff htask hwaiter).mp hblocks
  · intro h
    obtain ⟨task, htask, rfl⟩ := exists_graphTask h.task
    obtain ⟨waiter, hwaiter, rfl⟩ := exists_graphTask h.waiter
    exact ⟨task, htask, waiter, ⟨hwaiter, (blocks_iff htask hwaiter).mpr h⟩, rfl⟩

theorem mem_waiters {task waiter : Dagq.GraphTask} (htask : task ∈ s.graphTasks) :
    waiter ∈ Dagq.GraphTask.waiters s.graphTasks task ↔
      waiter ∈ s.graphTasks ∧ Relation.TransGen (Blocks s) task.id waiter.id := by
  have hedge : Graph.Edge (Dagq.GraphTask.edges s.graphTasks) = Blocks s := by
    funext a b
    exact propext edge_edges
  rw [Dagq.GraphTask.waiters, List.mem_filter, decide_eq_true_eq, Graph.mem_reached_iff, hedge,
    Relation.TransGen.head'_iff]
  refine and_congr_right fun _ => ?_
  constructor
  · rintro ⟨a, ha, hreach⟩
    obtain ⟨next, hnext, rfl⟩ := List.mem_map.mp ha
    obtain ⟨hnext, hblocks⟩ := List.mem_filter.mp hnext
    exact ⟨next.id, (blocks_iff htask hnext).mp hblocks, hreach⟩
  · rintro ⟨a, hblocks, hreach⟩
    obtain ⟨next, hnext, rfl⟩ := exists_graphTask hblocks.waiter
    refine ⟨next.id, List.mem_map_of_mem (List.mem_filter.mpr ⟨hnext, ?_⟩), hreach⟩
    exact (blocks_iff htask hnext).mpr hblocks

theorem reached_nodup : (reached (readGraphInput s) id).Nodup := sorted_nodup

/-- As many waiters. -/
theorem length_waiters {task : Dagq.GraphTask} (htask : task ∈ s.graphTasks) :
    (Dagq.GraphTask.waiters s.graphTasks task).length = count (readGraphInput s) task.id := by
  have hids : ((Dagq.GraphTask.waiters s.graphTasks task).map Dagq.GraphTask.id).Nodup :=
    graphTasks_nodup.sublist (List.filter_sublist.map _)
  have hperm : ((Dagq.GraphTask.waiters s.graphTasks task).map Dagq.GraphTask.id).Perm
      (reached (readGraphInput s) task.id) := by
    refine (List.perm_ext_iff_of_nodup hids reached_nodup).mpr fun w => ?_
    rw [mem_reached, List.mem_map]
    constructor
    · rintro ⟨waiter, hwaiter, rfl⟩
      exact ((mem_waiters htask).mp hwaiter).2
    · intro h
      obtain ⟨_, _, hlast⟩ := Relation.TransGen.tail'_iff.mp h
      obtain ⟨waiter, hwaiter, rfl⟩ := exists_graphTask hlast.waiter
      exact ⟨waiter, (mem_waiters htask).mpr ⟨hwaiter, h⟩, rfl⟩
  obtain ⟨row, hrow, hopen, _⟩ := mem_graphTasks htask
  have hfound : byIdOf (readGraphInput s) task.id = some (graphTask s task.id row) :=
    byIdOf_eq_some.mpr ⟨row, hrow, hopen, rfl⟩
  rw [count, hfound, ← hperm.length_eq, List.length_map]
  rfl

/-- The same priority inherited from them. -/
theorem effectivePriority_waiters {task : Dagq.GraphTask} (htask : task ∈ s.graphTasks) :
    Dagq.GraphTask.effectivePriority task.priority (Dagq.GraphTask.waiters s.graphTasks task) =
      (effective (readGraphInput s) task.id).asI64 := by
  obtain ⟨row, hrow, hopen, _, hpriority, _⟩ := mem_graphTasks htask
  have hfound : byIdOf (readGraphInput s) task.id = some (graphTask s task.id row) :=
    byIdOf_eq_some.mpr ⟨row, hrow, hopen, rfl⟩
  rw [effective, hfound]
  show _ = (effectivePriority row.task.priority _).asI64
  rw [effectivePriority, asI64_foldl_highest, Dagq.GraphTask.effectivePriority, hpriority,
    ← List.foldl_map]
  -- Both take the greatest over the same ready waiters, read from two tables.
  refine foldl_max_congr (fun x => ?_) _
  simp only [List.mem_map, List.mem_filter, List.mem_filterMap, mem_waiters htask, mem_reached,
    Bool.and_eq_true, decide_eq_true_eq]
  constructor
  · rintro ⟨waiter, ⟨⟨hwaiter, hreach⟩, hready, hstatus⟩, rfl⟩
    obtain ⟨wrow, hwrow, hwopen, hwstatus, hwpriority, _, hwgoal, _, _⟩ := mem_graphTasks hwaiter
    refine ⟨waiter.priority, ⟨graphTask s waiter.id wrow, ⟨⟨waiter.id, hreach, ?_⟩, ?_, ?_⟩, ?_⟩, rfl⟩
    · exact byIdOf_eq_some.mpr ⟨wrow, hwrow, hwopen, rfl⟩
    · exact hwstatus.symm.trans hready
    · rwa [← hwgoal]
    · exact hwpriority.symm
  · rintro ⟨_, ⟨found, ⟨⟨w, hreach, hw⟩, hready, hstatus⟩, rfl⟩, rfl⟩
    obtain ⟨wrow, hwrow, hwopen, rfl⟩ := byIdOf_eq_some.mp hw
    obtain ⟨waiter, hwaiter, rfl⟩ := exists_graphTask (mem_openTasks.mpr ⟨wrow, hwrow, hwopen⟩)
    obtain ⟨wrow', hwrow', _, hwstatus, hwpriority, _, hwgoal, _, _⟩ := mem_graphTasks hwaiter
    rw [hwrow] at hwrow'
    cases hwrow'
    refine ⟨waiter, ⟨⟨hwaiter, hreach⟩, hwstatus.trans hready, ?_⟩, ?_⟩
    · rwa [hwgoal]
    · rw [hwpriority]
      rfl

/-- First by `p`, then by `c`, both descending, then by `a`, ascending. -/
theorem lexicographic_iff (p q c d a b : Nat) :
    (if p ≠ q then decide (q < p) else if c ≠ d then decide (d < c) else decide (a ≤ b)) = true ↔
      q < p ∨ (p = q ∧ (d < c ∨ (c = d ∧ a ≤ b))) := by
  split
  · rw [decide_eq_true_eq]
    omega
  · split
    · rw [decide_eq_true_eq]
      omega
    · rw [decide_eq_true_eq]
      omega

theorem claimRank_le_iff {input : GraphInput} {a b : Nat} :
    (claimRank input a).le (claimRank input b) = true ↔
      (effective input b).asI64 < (effective input a).asI64 ∨
        ((effective input a).asI64 = (effective input b).asI64 ∧
          (count input b < count input a ∨ (count input a = count input b ∧ a ≤ b))) := by
  rw [← lexicographic_iff]
  unfold ClaimRank.le claimRank
  dsimp only
  by_cases hp : effective input a = effective input b
  · rw [if_neg (not_not_intro hp), if_neg (not_not_intro (congrArg Priority.asI64 hp))]
  · rw [if_pos hp, if_pos fun h => hp (asI64_inj h)]

/-- The order of two claims. -/
def claimsBefore (s : Store) (a b : Nat) : Prop :=
  (claimRank (readGraphInput s) a).le (claimRank (readGraphInput s) b) = true

theorem claimsBefore_iff {a b : Nat} : claimsBefore s a b ↔
    (effective (readGraphInput s) b).asI64 < (effective (readGraphInput s) a).asI64 ∨
      ((effective (readGraphInput s) a).asI64 = (effective (readGraphInput s) b).asI64 ∧
        (count (readGraphInput s) b < count (readGraphInput s) a ∨
          (count (readGraphInput s) a = count (readGraphInput s) b ∧ a ≤ b))) := claimRank_le_iff

theorem rank_before {a b : Dagq.GraphTask} (ha : a ∈ s.graphTasks) (hb : b ∈ s.graphTasks) :
    (Dagq.GraphTask.rank s.graphTasks a).before (Dagq.GraphTask.rank s.graphTasks b) = true ↔
      claimsBefore s a.id b.id := by
  rw [claimsBefore_iff, ← effectivePriority_waiters ha, ← effectivePriority_waiters hb,
    ← length_waiters ha, ← length_waiters hb]
  exact lexicographic_iff _ _ _ _ _ _

instance : Std.Total (claimsBefore s) where
  total a b := by
    rw [claimsBefore_iff, claimsBefore_iff]
    omega

instance : IsTrans Nat (claimsBefore s) where
  trans a b c := by
    rw [claimsBefore_iff, claimsBefore_iff, claimsBefore_iff]
    omega

instance : Std.Antisymm (claimsBefore s) where
  antisymm a b := by
    rw [claimsBefore_iff, claimsBefore_iff]
    omega

instance : DecidableRel (claimsBefore s) := fun _ _ => inferInstanceAs (Decidable (_ = true))

theorem readyRows_unfinished (h : id ∈ (readyRows s).map Prod.fst) :
    id ∈ openTasks (readGraphInput s) := by
  obtain ⟨⟨id, row⟩, hmem, rfl⟩ := List.mem_map.mp h
  obtain ⟨hrow, hcandidate⟩ := mem_readyRows.mp hmem
  simp only [Store.isCandidate, Bool.and_eq_true, decide_eq_true_eq] at hcandidate
  refine mem_openTasks.mpr ⟨row, hrow, ?_⟩
  rw [hcandidate.1.1.1.1]
  rfl

/-- The graph lists the claimable tasks in the order every claim takes them. -/
theorem graphCandidates_eq : graphCandidates (readGraphInput s) none = s.claimOrder := by
  -- The same ids in both, so sorted by the same order they are the same list.
  have hready : (((s.graphTasks.filter fun task => task.id ∈ s.readyTasks).map
      (Dagq.GraphTask.rank s.graphTasks)).map Dagq.GraphTask.ClaimRank.id).Perm
        ((readyRows s).map Prod.fst) := by
    rw [List.map_map]
    refine (List.perm_ext_iff_of_nodup ?_ readyRows_nodup).mpr fun id => ?_
    · exact graphTasks_nodup.sublist (List.filter_sublist.map _)
    · rw [List.mem_map, ← mem_readyTasks]
      constructor
      · rintro ⟨task, htask, rfl⟩
        exact of_decide_eq_true (List.mem_filter.mp htask).2
      · intro h
        obtain ⟨task, htask, rfl⟩ := exists_graphTask (readyRows_unfinished (mem_readyTasks.mp h))
        exact ⟨task, List.mem_filter.mpr ⟨htask, decide_eq_true h⟩, rfl⟩
  have hnew : graphCandidates (readGraphInput s) none =
      ((readyRows s).map Prod.fst).insertionSort (claimsBefore s) := by
    rw [graphCandidates, List.filter_eq_self.mpr (by simp)]
    rfl
  have hold : s.claimOrder =
      (((s.graphTasks.filter fun task => task.id ∈ s.readyTasks).map
        (Dagq.GraphTask.rank s.graphTasks)).map Dagq.GraphTask.ClaimRank.id).insertionSort
          (claimsBefore s) := by
    rw [Store.claimOrder]
    refine List.map_insertionSort _ _ _ _ fun a ha b hb => ?_
    obtain ⟨x, hx, rfl⟩ := List.mem_map.mp ha
    obtain ⟨y, hy, rfl⟩ := List.mem_map.mp hb
    exact rank_before (List.mem_of_mem_filter hx) (List.mem_of_mem_filter hy)
  rw [hnew, hold]
  refine List.Perm.eq_of_pairwise' (List.pairwise_insertionSort _ _)
    (List.pairwise_insertionSort _ _) ?_
  exact (List.perm_insertionSort _ _).trans
    (hready.symm.trans (List.perm_insertionSort _ _).symm)

/-! ## The listing ends -/

/-- Along the graph one waits for the other in the queue. -/
theorem Blocks.path (h : Blocks s id w) :
    Relation.TransGen (Graph.Edge s.waitEdges) (.task w) (.task id) := by
  rcases h.waits with hdep | ⟨row, g, goal, hrow, hg, hneeds, _, _⟩
  · have hsuccessor : Graph.Edge s.waitEdges (.task w) (.task id) :=
      List.mem_append_left _ (List.mem_append_left _ (List.mem_map_of_mem hdep))
    exact .single hsuccessor
  · have hgoal : Graph.Edge s.waitEdges (.task w) (.goal g) :=
      List.mem_append_left _ (List.mem_append_right _ (List.mem_map_of_mem hneeds))
    have hmember : Graph.Edge s.waitEdges (.goal g) (.task id) :=
      List.mem_append_right _ (List.mem_filterMap.mpr
        ⟨(id, row), Table.mem_rows_iff.mpr hrow, by rw [hg]; rfl⟩)
    exact .tail (.single hgoal) hmember

theorem mostUnblocks_mem {input : GraphInput} {ids : List TaskId} (h : mostUnblocks input ids = some id) :
    id ∈ ids := (List.mem_insertionSort _).mp (List.mem_of_head? h)

theorem nextStep_direct {input : GraphInput} (h : nextStep input id = some w) : w ∈ direct input id :=
  mostUnblocks_mem h

/-- Where nobody leads back to itself the critical chain visits no task twice. -/
theorem follow_ends {input : GraphInput} (hacyclic : Graph.Acyclic fun a b => b ∈ direct input a)
    (goalId : Option GoalId) {fuel : Nat} (hfuel : input.tasks.length < fuel) :
    (Walk.follow (nextStep input) fuel (firstStep input goalId)).isSome := by
  have hsteps : Graph.Acyclic (Walk.Step (nextStep input)) :=
    hacyclic.mono fun _ _ hstep => nextStep_direct hstep
  have hvalues : ∀ a b, nextStep input a = some b → b ∈ openTasks input :=
    fun a b hab => direct_subset input a b (nextStep_direct hab)
  refine Walk.follow_isSome hsteps hvalues (fun a ha => ?_) List.nodup_nil (List.nil_subset _)
    (fun _ _ _ hb => absurd hb List.not_mem_nil) ?_
  · have hids := mostUnblocks_mem (Option.filter_eq_some_iff.mp ha).1
    obtain ⟨task, htask, rfl⟩ := List.mem_map.mp (mem_sorted.mp hids)
    exact List.mem_map_of_mem (List.mem_of_mem_filter htask)
  · rwa [openTasks, List.length_map, List.length_nil, Nat.add_zero]

/-- In a queue where nobody waits for itself the critical chain ends. -/
theorem critical_ends (hacyclic : Graph.Acyclic (Graph.Edge s.waitEdges)) (goalId : Option GoalId)
    {fuel : Nat} (hfuel : (readGraphInput s).tasks.length < fuel) :
    (Walk.follow (nextStep (readGraphInput s)) fuel (firstStep (readGraphInput s) goalId)).isSome := by
  refine follow_ends (fun a ha => ?_) goalId hfuel
  have hback : ∀ b c, Relation.TransGen (fun x y => y ∈ direct (readGraphInput s) x) b c →
      Relation.TransGen (Graph.Edge s.waitEdges) (.task c) (.task b) := by
    intro b c hbc
    induction hbc with
    | single hstep => exact (mem_direct.mp hstep).path
    | tail _ hstep ih => exact (mem_direct.mp hstep).path.trans ih
  exact hacyclic (.task a) (hback a a ha)

theorem claimOrder_eq (hacyclic : Graph.Acyclic (Graph.Edge s.waitEdges)) {fuel : Nat}
    (hfuel : (readGraphInput s).tasks.length < fuel) : claimOrder fuel s = some s.claimOrder := by
  obtain ⟨critical, hcritical⟩ := Option.isSome_iff_exists.mp (critical_ends hacyclic none hfuel)
  rw [claimOrder, dependencyGraph, hcritical, ← graphCandidates_eq]
  rfl

/-- A list without duplicates stands in the order of its own positions. -/
theorem pairwise_positionKey {order : List TaskId} (h : order.Nodup) :
    order.Pairwise fun a b => positionKey order a ≤ positionKey order b := by
  rw [List.pairwise_iff_getElem]
  intro i j hi hj hij
  rw [positionKey, positionKey, if_pos (List.getElem_mem hi), if_pos (List.getElem_mem hj),
    h.idxOf_getElem i hi, h.idxOf_getElem j hj]
  omega

theorem positionKey_inj {order : List TaskId} {a b : TaskId} (ha : a ∈ order)
    (h : positionKey order a = positionKey order b) : a = b := by
  rw [positionKey, positionKey, if_pos ha] at h
  split_ifs at h
  exact (List.idxOf_inj ha).mp (Nat.succ_injective h)

theorem claimOrder_perm : s.claimOrder.Perm ((readyRows s).map Prod.fst) := by
  rw [← graphCandidates_eq, graphCandidates, List.filter_eq_self.mpr (by simp)]
  exact List.perm_insertionSort _ _

/-- The candidates are the claimable tasks with their rows, in the order of the claims. -/
theorem candidates_eq (hacyclic : Graph.Acyclic (Graph.Edge s.waitEdges)) {fuel : Nat}
    (hfuel : (readGraphInput s).tasks.length < fuel) : ∃ rows, candidates fuel s = some rows ∧
      rows.Perm (readyRows s) ∧ rows.map Prod.fst = s.claimOrder := by
  refine ⟨_, by rw [candidates, claimOrder_eq hacyclic hfuel]; rfl, List.perm_insertionSort _ _, ?_⟩
  have hnodup : s.claimOrder.Nodup := claimOrder_perm.nodup_iff.mpr readyRows_nodup
  rw [List.map_insertionSort _
    (fun a b => positionKey s.claimOrder a ≤ positionKey s.claimOrder b) _ _ fun _ _ _ _ => Iff.rfl]
  refine List.Perm.eq_of_pairwise (fun a b _ hb hab hba => ?_) ?_ (pairwise_positionKey hnodup) ?_
  · exact (positionKey_inj hb (Nat.le_antisymm hba hab)).symm
  · have : Std.Total fun a b => positionKey s.claimOrder a ≤ positionKey s.claimOrder b :=
      ⟨fun _ _ => Nat.le_total _ _⟩
    have : IsTrans TaskId fun a b => positionKey s.claimOrder a ≤ positionKey s.claimOrder b :=
      ⟨fun _ _ _ => Nat.le_trans⟩
    exact List.pairwise_insertionSort _ _
  · exact (List.perm_insertionSort _ _).trans claimOrder_perm.symm

end Order

end Dagq.Listing
