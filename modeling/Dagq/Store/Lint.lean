/-
# Dagq.Store.Lint -- the queue as the lint reads it.

The search of the lint runs over tasks only, a goal standing for its members; the query behind every
new dependency runs over tasks and goals.  Both walk the same waits: a path of the query between two
tasks is a path of the search with the goals left out, as the schema lets no dependency start at a task
that is not there.
-/
import Dagq.Domain.Lint
import Dagq.Store.DependencyGraph

namespace Dagq

open Lib

/-- What the foreign keys of the two dependency tables promise. -/
structure Store.ForeignKeys (s : Store) : Prop where
  task : ∀ e ∈ s.taskDependencies, (s.tasks.get? e.1).isSome
  predecessor : ∀ e ∈ s.taskDependencies, (s.tasks.get? e.2).isSome
  goalTask : ∀ e ∈ s.taskGoalDependencies, (s.tasks.get? e.1).isSome
  goal : ∀ e ∈ s.taskGoalDependencies, (s.goals.get? e.2).isSome

/-! ## The read -/

def lintNode (s : Store) (id : TaskId) (row : TaskRow) : LintNode where
  status := row.task.status
  goalId := row.task.goalId
  dependsOn := ((s.taskDependencies.filter fun e => e.1 = id).map Prod.snd).insertionSort (· ≤ ·)
  goalDependencies :=
    ((s.taskGoalDependencies.filter fun e => e.1 = id).map Prod.snd).insertionSort (· ≤ ·)

def readTarget (s : Store) (id : TaskId) : Except StoreError LintTarget :=
  match s.tasks.get? id with
  | some row => .ok { id := id, task := row.task }
  | none => .error (.refused s!"task {id} does not exist")

/-- The targets in the order given, every task's status and dependencies, and every goal's verdict. -/
def readLintInput (s : Store) (targets : List TaskId) : Except StoreError LintInput := do
  let targets ← targets.mapM (readTarget s)
  return {
    targets := targets
    nodes := s.tasks.map (lintNode s)
    goals := s.goals.map fun _ row => row.goal.verdict }

/-- The predecessors of a task, then the goals it waits for. -/
def Store.directDependencies (s : Store) (id : TaskId) : List Node :=
  ((s.taskDependencies.filter fun e => e.1 = id).map fun e => .task e.2)
    ++ (s.taskGoalDependencies.filter fun e => e.1 = id).map fun e => .goal e.2

/-! ## The same waits -/

variable {s : Store} {id a b : TaskId}

theorem readTarget_ok {target : LintTarget} (h : readTarget s id = .ok target) :
    target.id = id ∧ (s.tasks.get? id).isSome := by
  unfold readTarget at h
  split at h
  · rename_i row hrow
    cases h
    exact ⟨rfl, by rw [hrow]; rfl⟩
  · cases h

theorem readTargets_ok {ids : List TaskId} {targets : List LintTarget}
    (h : ids.mapM (readTarget s) = .ok targets) {id : TaskId} (hid : id ∈ ids) :
    (∃ target ∈ targets, target.id = id) ∧ (s.tasks.get? id).isSome := by
  induction ids generalizing targets with
  | nil => exact absurd hid List.not_mem_nil
  | cons first rest ih =>
      rw [List.mapM_cons] at h
      simp only [except_bind_ok, except_pure_ok] at h
      obtain ⟨target, htarget, others, hothers, rfl⟩ := h
      rcases List.mem_cons.mp hid with rfl | hid
      · obtain ⟨hsame, hrow⟩ := readTarget_ok htarget
        exact ⟨⟨target, List.mem_cons_self, hsame⟩, hrow⟩
      · obtain ⟨⟨found, hfound, hsame⟩, hrow⟩ := ih hothers hid
        exact ⟨⟨found, List.mem_cons_of_mem _ hfound, hsame⟩, hrow⟩

theorem readLintInput_ok {ids : List TaskId} {input : LintInput}
    (h : readLintInput s ids = .ok input) :
    ids.mapM (readTarget s) = .ok input.targets ∧ input.nodes = s.tasks.map (lintNode s) := by
  simp only [readLintInput, except_bind_ok, except_pure_ok] at h
  obtain ⟨targets, htargets, rfl⟩ := h
  exact ⟨htargets, rfl⟩

theorem mem_goalMembers {g : GoalId} : id ∈ goalMembers (s.tasks.map (lintNode s)) g ↔
    ∃ row, s.tasks.get? id = some row ∧ row.task.goalId = some g := by
  simp only [goalMembers, List.mem_insertionSort, List.mem_map, Prod.exists, Table.mem_select,
    Table.get?_map, Option.map_eq_some_iff, decide_eq_true_eq]
  constructor
  · rintro ⟨_, _, ⟨⟨row, hrow, rfl⟩, hgoal⟩, rfl⟩
    exact ⟨row, hrow, hgoal⟩
  · rintro ⟨row, hrow, hgoal⟩
    exact ⟨id, lintNode s id row, ⟨⟨row, hrow, rfl⟩, hgoal⟩, rfl⟩

theorem edge_predecessor : Graph.Edge s.waitEdges (.task a) (.task b) ↔ (a, b) ∈ s.taskDependencies := by
  simp [Graph.Edge, Store.waitEdges]

theorem edge_goal {g : GoalId} :
    Graph.Edge s.waitEdges (.task a) (.goal g) ↔ (a, g) ∈ s.taskGoalDependencies := by
  simp [Graph.Edge, Store.waitEdges]

theorem edge_member {g : GoalId} : Graph.Edge s.waitEdges (.goal g) (.task b) ↔
    ∃ row, s.tasks.get? b = some row ∧ row.task.goalId = some g := by
  simp [Graph.Edge, Store.waitEdges, Table.mem_rows_iff]

theorem not_edge_goal_goal {g g' : GoalId} : ¬Graph.Edge s.waitEdges (.goal g) (.goal g') := by
  simp [Graph.Edge, Store.waitEdges]

/-- The successors the lint walks over: the predecessors, and the members of the goals. -/
theorem mem_successors (hkeys : s.ForeignKeys) :
    b ∈ successors (s.tasks.map (lintNode s)) a ↔ (a, b) ∈ s.taskDependencies ∨
      ∃ g, (a, g) ∈ s.taskGoalDependencies ∧
        ∃ row, s.tasks.get? b = some row ∧ row.task.goalId = some g := by
  unfold successors
  rw [Table.get?_map]
  cases hrow : s.tasks.get? a with
  | none =>
      -- Nothing starts at a task that is not there.
      simp only [Option.map_none, List.not_mem_nil, false_iff, not_or, not_exists, not_and]
      refine ⟨fun hdep => ?_, fun g hdep => ?_⟩
      · have htask := hkeys.task _ hdep
        rw [hrow] at htask
        cases htask
      · have htask := hkeys.goalTask _ hdep
        rw [hrow] at htask
        cases htask
  | some row =>
      simp only [Option.map_some, lintNode, List.mem_append, List.mem_insertionSort, List.mem_map,
        List.mem_filter, decide_eq_true_eq, List.mem_flatMap, mem_goalMembers, Prod.exists]
      constructor
      · rintro (⟨_, _, ⟨hdep, rfl⟩, rfl⟩ | ⟨g, ⟨_, _, ⟨hdep, rfl⟩, rfl⟩, hmember⟩)
        · exact .inl hdep
        · exact .inr ⟨_, hdep, hmember⟩
      · rintro (hdep | ⟨g, hdep, hmember⟩)
        · exact .inl ⟨a, b, ⟨hdep, rfl⟩, rfl⟩
        · exact .inr ⟨g, ⟨a, g, ⟨hdep, rfl⟩, rfl⟩, hmember⟩

/-- What the lint walks to, the query walks to. -/
theorem path_of_successor (hkeys : s.ForeignKeys)
    (h : b ∈ successors (s.tasks.map (lintNode s)) a) :
    Relation.TransGen (Graph.Edge s.waitEdges) (.task a) (.task b) := by
  rcases (mem_successors hkeys).mp h with hdep | ⟨g, hdep, hmember⟩
  · exact .single (edge_predecessor.mpr hdep)
  · exact .tail (.single (edge_goal.mpr hdep)) (edge_member.mpr hmember)

/-- Where the lint gets on a path of the query: to a task it walks there, and to a goal it walks to a
task that waits for the goal. -/
def Follows (s : Store) (a : TaskId) : Node → Prop
  | .task b => Relation.TransGen (fun x y => y ∈ successors (s.tasks.map (lintNode s)) x) a b
  | .goal g => ∃ b, (b, g) ∈ s.taskGoalDependencies ∧
      Relation.ReflTransGen (fun x y => y ∈ successors (s.tasks.map (lintNode s)) x) a b

theorem follows_of_path (hkeys : s.ForeignKeys) {n : Node}
    (h : Relation.TransGen (Graph.Edge s.waitEdges) (.task a) n) : Follows s a n := by
  induction h with
  | @single n hedge =>
      cases n with
      | task b => exact .single ((mem_successors hkeys).mpr (.inl (edge_predecessor.mp hedge)))
      | goal g => exact ⟨a, edge_goal.mp hedge, .refl⟩
  | @tail m n _ hedge ih =>
      cases m with
      | task c =>
          have hreach : Relation.TransGen _ a c := ih
          cases n with
          | task b =>
              exact hreach.tail ((mem_successors hkeys).mpr (.inl (edge_predecessor.mp hedge)))
          | goal g => exact ⟨c, edge_goal.mp hedge, hreach.to_reflTransGen⟩
      | goal g =>
          obtain ⟨c, hdep, hreach⟩ := ih
          cases n with
          | task b =>
              have hstep := (mem_successors hkeys).mpr (.inr ⟨g, hdep, edge_member.mp hedge⟩)
              exact Relation.TransGen.tail' hreach hstep
          | goal g' => exact absurd hedge not_edge_goal_goal

/-- The lint finds a cycle through a task where the query does. -/
theorem inCycle_iff_path (hkeys : s.ForeignKeys) :
    inCycle (s.tasks.map (lintNode s)) id = true ↔
      Relation.TransGen (Graph.Edge s.waitEdges) (.task id) (.task id) := by
  rw [inCycle_iff]
  refine ⟨fun h => ?_, fun h => follows_of_path hkeys h⟩
  have hlift : ∀ x, Relation.TransGen
      (fun x y => y ∈ successors (s.tasks.map (lintNode s)) x) id x →
        Relation.TransGen (Graph.Edge s.waitEdges) (.task id) (.task x) := by
    intro x hx
    induction hx with
    | single hstep => exact path_of_successor hkeys hstep
    | tail _ hstep ih => exact ih.trans (path_of_successor hkeys hstep)
  exact hlift id h

theorem mem_directDependencies {d : Node} :
    d ∈ s.directDependencies id ↔ Graph.Edge s.waitEdges (.task id) d := by
  cases d with
  | task p => simp [Store.directDependencies, edge_predecessor]
  | goal g => simp [Store.directDependencies, edge_goal]

theorem waitsFor_iff {source target : Node} : s.waitsFor source target = true ↔
    Relation.ReflTransGen (Graph.Edge s.waitEdges) source target := by
  simp [Store.waitsFor, Graph.mem_reached_iff]

/-- The lint reports a cycle for exactly the tasks that lie on a cycle of what `waits_for` walks: a
direct dependency of the task already waits for it. -/
theorem lint_cycle_iff_waits (lower : List Char → List Char) (display : DomainError → String)
    (s : Store) (hkeys : s.ForeignKeys) (targets : List TaskId) (input : LintInput)
    (hread : readLintInput s targets = .ok input) (t : TaskId) (ht : t ∈ targets) :
    ((∃ v ∈ lint lower display input, v.code = .dependencyCycle ∧ v.taskId = t) ↔
      ∃ d ∈ s.directDependencies t, s.waitsFor d (.task t) = true) ∧
    ((∃ v ∈ lint lower display input, v.code = .dependencyCycle ∧ v.taskId = t) ↔
      Relation.TransGen (Graph.Edge s.waitEdges) (.task t) (.task t)) := by
  obtain ⟨htargets, hnodes⟩ := readLintInput_ok hread
  obtain ⟨hfound, hrow⟩ := readTargets_ok htargets ht
  have hreport : (∃ v ∈ lint lower display input, v.code = .dependencyCycle ∧ v.taskId = t) ↔
      Relation.TransGen (Graph.Edge s.waitEdges) (.task t) (.task t) := by
    rw [cycle_reported_iff, hnodes, Table.get?_map, Option.isSome_map, inCycle_iff_path hkeys]
    exact ⟨fun h => h.2.2, fun h => ⟨hfound, hrow, h⟩⟩
  refine ⟨?_, hreport⟩
  rw [hreport, Relation.TransGen.head'_iff]
  simp only [mem_directDependencies, waitsFor_iff]

/-- Task 1 waits for task 2, which waits for the goal that task 1 belongs to. -/
def goalLoop : Store :=
  let task (title : String) (goalId : Option GoalId) : TaskRow :=
    { task := { title := title, description := "", acceptance := "", verificationCommands := [],
                requiredEvidence := [], paths := [], priority := .normal, kind := none,
                status := .submitted, goalId := goalId, context := "" } }
  { Store.init with
    goals := ⟨[(7, { goal := { title := "g", description := "", acceptance := "", constraints := "",
                               doc := none, status := .open, verdict := none } })], by simp⟩
    tasks := ⟨[(1, task "a" (some 7)), (2, task "b" none)], by simp⟩
    taskDependencies := [(1, 2)]
    taskGoalDependencies := [(2, 7)] }

theorem goalLoop_foreignKeys : goalLoop.ForeignKeys where
  task := by decide
  predecessor := by decide
  goalTask := by decide
  goal := by decide

def goalLoopInput : LintInput where
  targets := (goalLoop.tasks.rows.take 1).map fun r => { id := r.1, task := r.2.task }
  nodes := goalLoop.tasks.map (lintNode goalLoop)
  goals := goalLoop.goals.map fun _ row => row.goal.verdict

theorem lint_cycle_iff_waits_goalLoop :
    ∃ v ∈ lint (fun title => title) (fun _ => "") goalLoopInput, v.code = .dependencyCycle ∧ v.taskId = 1 :=
  (lint_cycle_iff_waits (fun title => title) (fun _ => "") goalLoop goalLoop_foreignKeys [1]
    goalLoopInput rfl 1 (by decide)).1.mpr ⟨.task 2, by decide, by decide⟩

end Dagq
