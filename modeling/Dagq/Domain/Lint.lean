/-
# Dagq.Domain.Lint -- the mechanical checks of a plan.

Fixed rules for a set of tasks, usually the members of one proposal, over one read of the queue: the
dependency rules see every task and goal, the content rules the tasks themselves.  Violations come per
task in the order given and within a task in the order of the codes.
-/
import Dagq.Domain.Ask
import Dagq.Domain.Proposal
import Dagq.Domain.Task
import Dagq.Lib.Search
import Dagq.Lib.Table
import Mathlib.Data.List.Sort
import Mathlib.Tactic.SplitIfs

namespace Dagq

open Lib

/-! ## The read -/

/-- A rule, in the order violations are reported. -/
inductive LintCode
  | dependencyCycle | dependsOnCompleted | dependsOnCanceled | dependsOnDraft
  | dependsOnAbandonedGoal | unscopedWithoutVerification | noVerification | invalidPathGlob
  | blankAcceptance | duplicateTitle
  deriving DecidableEq

structure LintViolation where
  code : LintCode
  taskId : TaskId
  reason : String
  deriving DecidableEq

/-- A task of the queue as the dependency rules see it. -/
structure LintNode where
  status : TaskStatus
  goalId : Option GoalId
  dependsOn : List TaskId
  goalDependencies : List GoalId

/-- A task to check. -/
structure LintTarget where
  id : TaskId
  task : Task

/-- The tasks to check in the order to report them, and every task and goal of the queue. -/
structure LintInput where
  targets : List LintTarget
  nodes : Table TaskId LintNode
  /-- Each goal with its verdict, absent while it is not closed. -/
  goals : Table GoalId (Option GoalVerdict)

/-! ## Cycles -/

section Cycle

variable (nodes : Table TaskId LintNode)

/-- The tasks of a goal, in id order. -/
def goalMembers (goalId : GoalId) : List TaskId :=
  ((nodes.select fun _ node => node.goalId = some goalId).map Prod.fst).insertionSort (· ≤ ·)

/-- A task waits for its predecessors, and for every task of each goal it depends on, whatever the
statuses and verdicts. -/
def successors (id : TaskId) : List TaskId :=
  match nodes.get? id with
  | none => []
  | some node => node.dependsOn ++ node.goalDependencies.flatMap (goalMembers nodes)

/-- The last successor is taken first. -/
def pushSuccessors (id : TaskId) : List TaskId := (successors nodes id).reverse

/-- All that is ever pushed. -/
def allSuccessors : List TaskId := nodes.rows.flatMap fun r => successors nodes r.1

theorem mem_allSuccessors {a b : TaskId} (h : b ∈ successors nodes a) : b ∈ allSuccessors nodes := by
  have hnode : ∃ node, nodes.get? a = some node := by
    unfold successors at h
    split at h
    · exact absurd h List.not_mem_nil
    · exact ⟨_, ‹_›⟩
  obtain ⟨node, hnode⟩ := hnode
  exact List.mem_flatMap.mpr ⟨(a, node), Table.mem_rows_iff.mpr hnode, h⟩

/-- As many steps as the search from `start` can take. -/
def cycleFuel (start : TaskId) : Nat :=
  (pushSuccessors nodes start).length
    + Search.unspent (pushSuccessors nodes) (allSuccessors nodes) [] + 1

theorem cycle_search_ends (start : TaskId) : (Search.search (pushSuccessors nodes)
    (cycleFuel nodes start) [] (pushSuccessors nodes start)).isSome := by
  have hpush (a : TaskId) : ∀ b ∈ pushSuccessors nodes a, b ∈ allSuccessors nodes :=
    fun _ hb => mem_allSuccessors nodes (List.mem_reverse.mp hb)
  exact Search.search_isSome hpush (hpush start) (Nat.lt_succ_self _)

/-- Whether `start` reaches itself: `none` where the steps are not enough, which never happens. -/
def cycleSearch (start : TaskId) : Option Bool :=
  Search.leads (pushSuccessors nodes) start (cycleFuel nodes start) [] (pushSuccessors nodes start)

/-- The search says whether `start` leads to itself over one successor or more. -/
theorem cycleSearch_eq (start : TaskId) : ∃ found, cycleSearch nodes start = some found ∧
    (found = true ↔ Relation.TransGen (fun a b => b ∈ successors nodes a) start start) := by
  obtain ⟨result, hresult⟩ := Option.isSome_iff_exists.mp (cycle_search_ends nodes start)
  refine ⟨_, Search.leads_of_search hresult List.not_mem_nil, ?_⟩
  have hedge : Search.Edge (pushSuccessors nodes) = fun a b => b ∈ successors nodes a := by
    funext a b
    rw [Search.Edge, pushSuccessors, List.mem_reverse]
  rw [decide_eq_true_eq, Search.mem_search_iff hresult, hedge, Relation.TransGen.head'_iff]
  simp only [pushSuccessors, List.mem_reverse]

/-- Whether `start` reaches itself over the edges the queue refuses to close into a loop. -/
def inCycle (start : TaskId) : Bool := cycleSearch nodes start = some true

theorem inCycle_iff {start : TaskId} : inCycle nodes start = true ↔
    Relation.TransGen (fun a b => b ∈ successors nodes a) start start := by
  obtain ⟨found, hfound, hiff⟩ := cycleSearch_eq nodes start
  rw [inCycle, hfound, decide_eq_true_eq, Option.some.injEq, hiff]

end Cycle

/-! ## The rules -/

section Rules

/- What the standard library makes of texts: `lower` is `to_lowercase`, `display` the text of a
rejection. -/
variable (lower : List Char → List Char) (display : DomainError → String)

def violation (code : LintCode) (target : LintTarget) (reason : String) : LintViolation :=
  { code := code, taskId := target.id, reason := reason }

/-- The rule a predecessor of this status breaks. -/
def predecessorRule (members : List TaskId) (predecessor : TaskId) :
    TaskStatus → Option (LintCode × String)
  | .completed => some (.dependsOnCompleted, "is already completed")
  | .canceled => some (.dependsOnCanceled, "was canceled and never completes")
  | .draft =>
      if predecessor ∉ members then some (.dependsOnDraft, "is a draft that nothing submitted")
      else none
  | _ => none

def predecessorRules (input : LintInput) (target : LintTarget) (node : LintNode) :
    List LintViolation :=
  node.dependsOn.filterMap fun predecessor => do
    let p ← input.nodes.get? predecessor
    let (code, why) ← predecessorRule (input.targets.map (·.id)) predecessor p.status
    return violation code target s!"it depends on task {predecessor}, which {why}"

def abandonedGoalRules (input : LintInput) (target : LintTarget) (node : LintNode) :
    List LintViolation :=
  (node.goalDependencies.filter fun g => input.goals.get? g = some (some .abandoned)).map fun g =>
    violation .dependsOnAbandonedGoal target
      s!"it waits for goal {g}, which was closed as abandoned"

/-- The rules about the task's place among the others, when the queue has it. -/
def dependencyRules (input : LintInput) (target : LintTarget) : List LintViolation :=
  match input.nodes.get? target.id with
  | none => []
  | some node =>
      (if inCycle input.nodes target.id then
        [violation .dependencyCycle target "it depends on itself through its dependencies"] else [])
        ++ predecessorRules input target node ++ abandonedGoalRules input target node

def contentRules (target : LintTarget) : List LintViolation :=
  (if target.task.verificationCommands.isEmpty then
    [if target.task.paths.isEmpty then
      violation .unscopedWithoutVerification target
        "it declares no paths, so it may change anything, and no verification command checks the change"
    else
      violation .noVerification target "no verification command checks the change within its paths"]
  else [])
    ++ (target.task.paths.filterMap fun glob => match validatePathGlobs [glob] with
      | .ok _ => none
      | .error error => some (violation .invalidPathGlob target (display error)))
    ++ (if isBlank target.task.acceptance then
        [violation .blankAcceptance target "its acceptance criteria are blank"] else [])

/-- The title two targets may share. -/
def sameTitle (target : LintTarget) : List Char := lower (trimChars target.task.title)

/-- The other targets with the title, each as often as it is listed. -/
def sharing (targets : List LintTarget) (target : LintTarget) : List TaskId :=
  ((targets.filter fun other => sameTitle lower other = sameTitle lower target).map (·.id)).filter
    (· ≠ target.id)

def duplicateTitleReason : List TaskId → String
  | [other] => s!"task {other} has the same title"
  | others =>
      let names := ", ".intercalate (others.map toString)
      s!"tasks {names} have the same title"

/-- Each task whose title another target shares, naming the others. -/
def duplicateTitles (targets : List LintTarget) : List LintViolation :=
  (targets.filter fun target => !(sharing lower targets target).isEmpty).map fun target =>
    violation .duplicateTitle target (duplicateTitleReason (sharing lower targets target))

/-- The place of a violation's task among the targets. -/
def reportPlace (targets : List LintTarget) (v : LintViolation) : Nat :=
  (targets.findIdx? fun target => target.id = v.taskId).elim 0 (· + 1)

/-- Violations are reported by the place of their task, then by their code. -/
def reportedBefore (targets : List LintTarget) (a b : LintViolation) : Bool :=
  reportPlace targets a < reportPlace targets b ||
    (reportPlace targets a = reportPlace targets b && a.code.ctorIdx ≤ b.code.ctorIdx)

/-- Check every rule on the targets; an empty list means they pass. -/
def lint (input : LintInput) : List LintViolation :=
  ((input.targets.flatMap fun target =>
    dependencyRules input target ++ contentRules display target)
      ++ duplicateTitles lower input.targets).insertionSort fun a b => reportedBefore input.targets a b

/-! ## Who reports what -/

variable {lower : List Char → List Char} {display : DomainError → String}
  {input : LintInput} {target : LintTarget} {v : LintViolation}

theorem mem_lint : v ∈ lint lower display input ↔
    (∃ target ∈ input.targets, v ∈ dependencyRules input target ∨ v ∈ contentRules display target)
      ∨ v ∈ duplicateTitles lower input.targets := by
  simp only [lint, List.mem_insertionSort, List.mem_append, List.mem_flatMap]

theorem predecessorRules_code {node : LintNode} (h : v ∈ predecessorRules input target node) :
    v.code = .dependsOnCompleted ∨ v.code = .dependsOnCanceled ∨ v.code = .dependsOnDraft := by
  obtain ⟨predecessor, _, hrule⟩ := List.mem_filterMap.mp h
  obtain ⟨p, _, hrule⟩ := Option.bind_eq_some_iff.mp hrule
  obtain ⟨⟨code, why⟩, hcode, hv⟩ := Option.bind_eq_some_iff.mp hrule
  cases hv
  show code = _ ∨ code = _ ∨ code = _
  cases hstatus : p.status <;> rw [hstatus] at hcode <;> simp only [predecessorRule] at hcode
  case completed => exact .inl (by cases hcode; rfl)
  case canceled => exact .inr (.inl (by cases hcode; rfl))
  case draft =>
    split at hcode
    · exact .inr (.inr (by cases hcode; rfl))
    · cases hcode
  all_goals cases hcode

theorem abandonedGoalRules_code {node : LintNode} (h : v ∈ abandonedGoalRules input target node) :
    v.code = .dependsOnAbandonedGoal := by
  obtain ⟨g, _, rfl⟩ := List.mem_map.mp h
  rfl

theorem contentRules_code (h : v ∈ contentRules display target) :
    v.code = .unscopedWithoutVerification ∨ v.code = .noVerification ∨ v.code = .invalidPathGlob ∨
      v.code = .blankAcceptance := by
  rw [contentRules, List.mem_append, List.mem_append] at h
  rcases h with (h | h) | h
  · split_ifs at h
    · exact .inl (by rw [List.mem_singleton.mp h]; rfl)
    · exact .inr (.inl (by rw [List.mem_singleton.mp h]; rfl))
    · exact absurd h List.not_mem_nil
  · obtain ⟨glob, _, hglob⟩ := List.mem_filterMap.mp h
    split at hglob
    · cases hglob
    · cases hglob
      exact .inr (.inr (.inl rfl))
  · split_ifs at h
    · exact .inr (.inr (.inr (by rw [List.mem_singleton.mp h]; rfl)))
    · exact absurd h List.not_mem_nil

theorem duplicateTitles_code (h : v ∈ duplicateTitles lower input.targets) :
    v.code = .duplicateTitle := by
  obtain ⟨target, _, rfl⟩ := List.mem_map.mp h
  rfl

/-- Every violation of the dependency rules is about the target they check. -/
theorem dependencyRules_cycle : (∃ v ∈ dependencyRules input target, v.code = .dependencyCycle) ↔
    (input.nodes.get? target.id).isSome ∧ inCycle input.nodes target.id = true := by
  unfold dependencyRules
  cases hnode : input.nodes.get? target.id with
  | none => simp
  | some node =>
      simp only [Option.isSome_some, true_and, List.mem_append]
      constructor
      · rintro ⟨v, (hv | hv) | hv, hcode⟩
        · by_contra hcycle
          rw [if_neg hcycle] at hv
          exact List.not_mem_nil hv
        · rcases predecessorRules_code hv with h | h | h <;> rw [h] at hcode <;> cases hcode
        · rw [abandonedGoalRules_code hv] at hcode
          cases hcode
      · intro hcycle
        refine ⟨violation .dependencyCycle target "it depends on itself through its dependencies",
          .inl (.inl ?_), rfl⟩
        rw [if_pos hcycle]
        exact List.mem_singleton_self _

theorem dependencyRules_taskId (h : v ∈ dependencyRules input target) : v.taskId = target.id := by
  unfold dependencyRules at h
  split at h
  · exact absurd h List.not_mem_nil
  · rw [List.mem_append, List.mem_append] at h
    rcases h with (h | h) | h
    · split_ifs at h
      · rw [List.mem_singleton.mp h]
        rfl
      · exact absurd h List.not_mem_nil
    · obtain ⟨predecessor, _, hrule⟩ := List.mem_filterMap.mp h
      obtain ⟨p, _, hrule⟩ := Option.bind_eq_some_iff.mp hrule
      obtain ⟨code, _, hv⟩ := Option.bind_eq_some_iff.mp hrule
      cases hv
      rfl
    · obtain ⟨g, _, rfl⟩ := List.mem_map.mp h
      rfl

/-- Only the search for a cycle reports the first code. -/
theorem cycle_reported_iff {id : TaskId} :
    (∃ v ∈ lint lower display input, v.code = .dependencyCycle ∧ v.taskId = id) ↔
      (∃ target ∈ input.targets, target.id = id) ∧ (input.nodes.get? id).isSome ∧
        inCycle input.nodes id = true := by
  constructor
  · rintro ⟨v, hv, hcode, rfl⟩
    rcases mem_lint.mp hv with ⟨target, htarget, hv | hv⟩ | hv
    · rw [dependencyRules_taskId hv]
      exact ⟨⟨target, htarget, rfl⟩, dependencyRules_cycle.mp ⟨v, hv, hcode⟩⟩
    · rcases contentRules_code hv with h | h | h | h <;> rw [h] at hcode <;> cases hcode
    · rw [duplicateTitles_code hv] at hcode
      cases hcode
  · rintro ⟨⟨target, htarget, rfl⟩, hcycle⟩
    obtain ⟨v, hv, hcode⟩ := dependencyRules_cycle.mpr hcycle
    exact ⟨v, mem_lint.mpr (.inl ⟨target, htarget, .inl hv⟩), hcode, dependencyRules_taskId hv⟩

end Rules

end Dagq
