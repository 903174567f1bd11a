/-
# Dagq.Domain.Goal -- the goal aggregate: opened from a draft, closed once.

A stored goal has a close time exactly when it has a verdict (the queue refuses any other row), so a
goal here is closed when it has a verdict, and the close time itself is not kept.
-/
import Dagq.Domain.Values

namespace Dagq

/-- A goal to register. -/
structure NewGoal where
  title : String
  description : String := ""
  acceptance : String := ""
  constraints : String := ""
  doc : Option String := none
  /-- Register the goal as a draft whose tasks are not candidates. -/
  draft : Bool := false

def NewGoal.validate (new : NewGoal) : Except DomainError Unit :=
  require (!isBlank new.title) (.blank "goal title")

/-- Fields of a goal to replace; `none` keeps the current value, an empty `doc` clears it. -/
structure GoalEdit where
  title : Option String := none
  description : Option String := none
  acceptance : Option String := none
  constraints : Option String := none
  doc : Option String := none

def GoalEdit.isEmpty (edit : GoalEdit) : Bool :=
  edit.title.isNone && edit.description.isNone && edit.acceptance.isNone && edit.constraints.isNone
    && edit.doc.isNone

/-- How many tasks of a goal are in each status. -/
structure TaskStatusCounts where
  draft : Nat
  submitted : Nat
  ready : Nat
  inProgress : Nat
  completed : Nat
  canceled : Nat

/-- The counts of a list of statuses. -/
def TaskStatusCounts.of (statuses : List TaskStatus) : TaskStatusCounts where
  draft := statuses.count .draft
  submitted := statuses.count .submitted
  ready := statuses.count .ready
  inProgress := statuses.count .inProgress
  completed := statuses.count .completed
  canceled := statuses.count .canceled

/-- `achieved` needs every task finished; `abandoned` only needs nothing executing. -/
def GoalVerdict.allows : GoalVerdict → TaskStatus → Bool
  | .achieved, task => task = .completed || task = .canceled
  | .abandoned, task => task != .inProgress

/-- A higher-level problem that several tasks solve together. -/
structure Goal where
  title : String
  description : String
  acceptance : String
  constraints : String
  doc : Option String
  status : GoalStatus
  /-- Set by the one close. -/
  verdict : Option GoalVerdict

namespace Goal

def isClosed (goal : Goal) : Bool := goal.verdict.isSome

/-- An unclosed draft: the only goal `goal ready` opens. -/
def isDraft (goal : Goal) : Bool := goal.status = .draft && !goal.isClosed

/-- A goal registered now as `id`: open, or a draft when asked, and not closed.  A blank `doc` is no
reference. -/
def create (id : GoalId) (new : NewGoal) : Except DomainError Goal := do
  new.validate
  require (0 < id) (.nonPositiveId "goal ID")
  return {
    title := new.title
    description := new.description
    acceptance := new.acceptance
    constraints := new.constraints
    doc := new.doc.filter fun d => !isBlank d
    status := if new.draft then .draft else .open
    verdict := none }

def requireOpen (goalId : GoalId) (goal : Goal) : Except DomainError Unit :=
  require (!goal.isClosed) (.goalAlreadyClosed goalId goal.verdict)

/-- Tasks join and move between open goals only; a closed goal is a record. -/
def checkAcceptsTasks (goalId : GoalId) (goal : Goal) : Except DomainError Unit :=
  require (!goal.isClosed) (.goalClosed goalId goal.verdict)

/-- The goal with the fields of `edit` replaced; a title must stay non-blank and an empty `doc`
clears the reference. -/
def edit (goal : Goal) (edit : GoalEdit) : Except DomainError Goal := do
  require (edit.title.all fun s => !isBlank s) (.blank "goal title")
  return { goal with
    title := edit.title.getD goal.title
    description := edit.description.getD goal.description
    acceptance := edit.acceptance.getD goal.acceptance
    constraints := edit.constraints.getD goal.constraints
    doc := match edit.doc with
      | some doc => if isBlank doc then none else some doc
      | none => goal.doc }

/-- `goal ready`: a draft that is not closed opens, so its tasks become candidates. -/
def ready (goalId : GoalId) (goal : Goal) : Except DomainError Goal := do
  requireOpen goalId goal
  require (goal.status = .draft) (.goalNotDraft goalId)
  return { goal with status := .open }

/-- The statuses, with how many tasks have each, that do not allow `verdict`. -/
def blocking (verdict : GoalVerdict) (counts : TaskStatusCounts) : List (TaskStatus × Nat) :=
  [(.draft, counts.draft), (.submitted, counts.submitted), (.ready, counts.ready),
    (.inProgress, counts.inProgress)].filter fun r => 0 < r.2 && !verdict.allows r.1

/-- Close the goal with `verdict`, its tasks numbering `counts` by status. -/
def close (goalId : GoalId) (goal : Goal) (verdict : GoalVerdict) (counts : TaskStatusCounts) :
    Except DomainError Goal := do
  requireOpen goalId goal
  require (blocking verdict counts).isEmpty
    (.goalCloseBlocked goalId verdict (blocking verdict counts))
  return { goal with verdict := some verdict }

/-! ## What the commands do -/

@[simp] theorem checkAcceptsTasks_ok {goalId : GoalId} {goal : Goal} {u : Unit} :
    checkAcceptsTasks goalId goal = .ok u ↔ goal.isClosed = false := by
  simp [checkAcceptsTasks]

theorem create_ok {id : GoalId} {new : NewGoal} {goal : Goal} (h : create id new = .ok goal) :
    goal.verdict = none := by
  simp only [create, except_bind_ok, except_pure_ok] at h
  obtain ⟨_, _, _, _, rfl⟩ := h
  rfl

/-- An edit replaces texts only: never the status or the verdict. -/
theorem edit_ok {goal goal' : Goal} {e : GoalEdit} (h : edit goal e = .ok goal') :
    goal'.status = goal.status ∧ goal'.verdict = goal.verdict := by
  simp only [edit, except_bind_ok, except_pure_ok] at h
  obtain ⟨_, _, rfl⟩ := h
  exact ⟨rfl, rfl⟩

theorem ready_ok {goalId : GoalId} {goal goal' : Goal} (h : ready goalId goal = .ok goal') :
    goal.isClosed = false ∧ { goal with status := .open } = goal' := by
  simp only [ready, requireOpen, except_bind_ok, except_pure_ok, require_ok] at h
  obtain ⟨_, hopen, _, _, rfl⟩ := h
  exact ⟨by simpa using hopen, rfl⟩

theorem close_ok {goalId : GoalId} {goal goal' : Goal} {verdict : GoalVerdict}
    {counts : TaskStatusCounts} (h : close goalId goal verdict counts = .ok goal') :
    goal.isClosed = false ∧ blocking verdict counts = [] ∧
      { goal with verdict := some verdict } = goal' := by
  simp only [close, requireOpen, except_bind_ok, except_pure_ok, require_ok] at h
  obtain ⟨_, hopen, _, hnone, rfl⟩ := h
  exact ⟨by simpa using hopen, by simpa using hnone, rfl⟩

/-- A status that does not allow the verdict has no task once the goal closes. -/
theorem count_eq_zero_of_blocking_nil {verdict : GoalVerdict} {statuses : List TaskStatus}
    (h : blocking verdict (.of statuses) = []) {status : TaskStatus} (hmem : status ∈ statuses) :
    verdict.allows status = true := by
  have hpos : 0 < statuses.count status := List.count_pos_iff.mpr hmem
  have hall : ∀ r ∈ [(TaskStatus.draft, statuses.count .draft), (.submitted, statuses.count .submitted),
      (.ready, statuses.count .ready), (.inProgress, statuses.count .inProgress)],
      ¬(0 < r.2 && !verdict.allows r.1) = true :=
    List.filter_eq_nil_iff.mp h
  simp only [List.forall_mem_cons, Bool.and_eq_true, decide_eq_true_eq, not_and] at hall
  cases status with
  | completed => cases verdict <;> rfl
  | canceled => cases verdict <;> rfl
  | draft => simpa using hall.1 hpos
  | submitted => simpa using hall.2.1 hpos
  | ready => simpa using hall.2.2.1 hpos
  | inProgress => simpa using hall.2.2.2.1 hpos

end Goal

end Dagq
