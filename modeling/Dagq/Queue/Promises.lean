/-
# Dagq.Queue.Promises -- what holds of every board, whatever the order of its steps.

Each promise is a predicate on boards together with the proof that no step breaks it: edges lead
somewhere, a run under way is owned, the completed tasks are the landed ones, a claimed task waits for
nothing, nobody waits for itself, and a run that waits to land was accepted.  Where a step matters to
several of them, a lemma says once what it can have done.
-/
import Dagq.Queue.Board
import Mathlib.Tactic.SplitIfs

namespace Dagq.Board

open Lib Relation

variable {P : Policy} {b b' : Board}

/-! ## Every edge and every run is about something registered -/

structure WellFormed (b : Board) : Prop where
  run_task : ∀ {r v}, b.run r = some v → (b.task v.taskId).isSome
  needs_left : ∀ {t p}, b.needs t p → (b.task t).isSome
  needs_right : ∀ {t p}, b.needs t p → (b.task p).isSome
  needsGoal_left : ∀ {t g}, b.needsGoal t g → (b.task t).isSome
  needsGoal_right : ∀ {t g}, b.needsGoal t g → (b.goal g).isSome

/-- Tasks are never removed. -/
theorem Step.task_isSome (h : Step P b b') {t : TaskId} (ht : (b.task t).isSome) :
    (b'.task t).isSome := by
  cases h <;> simp <;> grind

/-- Goals are never removed. -/
theorem Step.goal_isSome (h : Step P b b') {g : GoalId} (hg : (b.goal g).isSome) :
    (b'.goal g).isSome := by
  cases h <;> simp <;> grind

/-- A run stays on its task, and a new one is on a registered task. -/
theorem Step.run_origin (h : Step P b b') {r : RunId} {v : RunView} (hv : b'.run r = some v) :
    (∃ w, b.run r = some w ∧ w.taskId = v.taskId) ∨ (b.task v.taskId).isSome := by
  cases h <;> simp at hv <;> grind

theorem Step.needs_origin (h : Step P b b') {t p : TaskId} (hn : b'.needs t p) :
    b.needs t p ∨ ((b.task t).isSome ∧ (b.task p).isSome) := by
  cases h <;> simp at hn <;> grind

theorem Step.needsGoal_origin (h : Step P b b') {t : TaskId} {g : GoalId} (hn : b'.needsGoal t g) :
    b.needsGoal t g ∨ ((b.task t).isSome ∧ (b.goal g).isSome) := by
  cases h <;> simp at hn <;> grind

theorem WellFormed.empty : WellFormed empty := by
  constructor <;> intros <;> contradiction

theorem WellFormed.step (hb : WellFormed b) (h : Step P b b') : WellFormed b' := by
  constructor
  · intro r v hv
    apply h.task_isSome
    rcases h.run_origin hv with ⟨w, hw, heq⟩ | hsome
    · exact heq ▸ hb.run_task hw
    · exact hsome
  · intro t p hn
    apply h.task_isSome
    rcases h.needs_origin hn with hn | hsome
    · exact hb.needs_left hn
    · exact hsome.1
  · intro t p hn
    apply h.task_isSome
    rcases h.needs_origin hn with hn | hsome
    · exact hb.needs_right hn
    · exact hsome.2
  · intro t g hn
    apply h.task_isSome
    rcases h.needsGoal_origin hn with hn | hsome
    · exact hb.needsGoal_left hn
    · exact hsome.1
  · intro t g hn
    apply h.goal_isSome
    rcases h.needsGoal_origin hn with hn | hsome
    · exact hb.needsGoal_right hn
    · exact hsome.2

/-! ## A run under way is owned -/

/-- The run is the latest one of a task in progress. -/
def IsOwned (b : Board) (r : RunId) (v : RunView) : Prop :=
  (∃ w, b.task v.taskId = some w ∧ w.status = .inProgress) ∧ b.latest v.taskId = some r

/-- Every run under way is the latest run of a task in progress. -/
def Owned (b : Board) : Prop :=
  ∀ r v, b.run r = some v → v.status.unfinished = true → b.IsOwned r v

/-- One run of a task at a time is under way. -/
theorem Owned.unique (hb : Owned b) {r r' : RunId} {v v' : RunView} (hv : b.run r = some v)
    (hv' : b.run r' = some v') (hs : v.status.unfinished = true)
    (hs' : v'.status.unfinished = true) (ht : v'.taskId = v.taskId) : r' = r := by
  have h := (hb r v hv hs).2
  have h' := (hb r' v' hv' hs').2
  rw [ht, h] at h'
  exact (Option.some.inj h').symm

theorem Owned.empty : Owned empty := by
  intro r v hv
  cases hv

/-- Owned runs stay owned when a recovery revives none but an owned run: no other step moves a task
under a run, makes another run the latest, or brings a run to life, than the claim, which does all
three at once. -/
theorem Owned.step (hP : ∀ b r, P.revive b r → ∀ v, b.run r = some v → b.IsOwned r v)
    (hb : Owned b) (h : Step P b b') : Owned b' := by
  intro r v hv hs
  unfold IsOwned
  cases h <;> simp at hv ⊢
  case addTask t g fresh goal => grind [Owned, IsOwned]
  case moveTask t w status found source target idle => grind [Owned, IsOwned, Idle]
  case claim t r' w x found ready idle needs goals fresh view =>
    simp only [Function.update_apply]
    grind [Owned, IsOwned, Idle]
  case finishLanding r' v' w c found source task inProgress =>
    grind [Owned, IsOwned, RunStatus.unfinished]
  case revive r' v' found source allowed => grind [Owned, IsOwned]
  all_goals grind [Owned, IsOwned, RunStatus.unfinished]

/-! ## Completed tasks are the landed ones -/

/-- A task is completed exactly when a run of it is integrated; that run is the only one, and its
landing commit is on record. -/
structure Landed (b : Board) : Prop where
  completed_of_integrated : ∀ {r v}, b.run r = some v → v.status = .integrated →
    ∃ w, b.task v.taskId = some w ∧ w.status = .completed
  integrated_of_completed : ∀ {t w}, b.task t = some w → w.status = .completed →
    ∃ r v, b.run r = some v ∧ v.taskId = t ∧ v.status = .integrated
  unique : ∀ {r r' v v'}, b.run r = some v → b.run r' = some v' → v.taskId = v'.taskId →
    v.status = .integrated → v'.status = .integrated → r = r'
  commit : ∀ {r v}, b.run r = some v → v.status = .integrated → v.resultCommit.isSome = true

/-- A completed task stays completed. -/
theorem Step.completed (h : Step P b b') {t : TaskId} {w : TaskView} (hw : b.task t = some w)
    (hs : w.status = .completed) : ∃ w', b'.task t = some w' ∧ w'.status = .completed := by
  cases h <;> simp <;> grind [TaskStatus.isTerminal, TaskStatus.dependenciesEditable]

/-- An integrated run stays as it is. -/
theorem Step.integrated (h : Step P b b') {r : RunId} {v : RunView} (hv : b.run r = some v)
    (hs : v.status = .integrated) : b'.run r = some v := by
  cases h <;> simp <;> grind [RunStatus.unfinished]

/-- A run keeps its task. -/
theorem Step.run_task (h : Step P b b') {r : RunId} {v : RunView} (hv : b.run r = some v) :
    ∃ w, b'.run r = some w ∧ w.taskId = v.taskId := by
  cases h <;> simp <;> grind

/-- What a step that integrates the run as `v` found and left. -/
structure Lands (b b' : Board) (r : RunId) (v : RunView) : Prop where
  inProgress : ∃ w, b.task v.taskId = some w ∧ w.status = .inProgress
  completed : ∃ w, b'.task v.taskId = some w ∧ w.status = .completed
  commit : v.resultCommit.isSome = true
  others : ∀ r' v', b'.run r' = some v' → r' ≠ r → b.run r' = some v'

theorem Step.integrated_cases (h : Step P b b') {r : RunId} {v : RunView} (hv : b'.run r = some v)
    (hs : v.status = .integrated) : b.run r = some v ∨ Lands b b' r v := by
  cases h <;> simp at hv
  case finishLanding r' v' w c found source task inProgress =>
    by_cases hr : r = r'
    · subst hr
      simp only [if_true, Option.some.injEq] at hv
      subst hv
      refine .inr ⟨⟨w, task, inProgress⟩, ?_, rfl, ?_⟩
      · exact ⟨{ w with status := .completed }, by simp, rfl⟩
      · intro r' v' hv' hne
        simpa [hne] using hv'
    · exact .inl (by simpa [hr] using hv)
  all_goals grind [isWorkTarget]

theorem Step.completed_cases (h : Step P b b') {t : TaskId} {w : TaskView} (hw : b'.task t = some w)
    (hs : w.status = .completed) : b.task t = some w ∨
      ∃ r v, b'.run r = some v ∧ v.taskId = t ∧ v.status = .integrated := by
  cases h <;> simp at hw ⊢ <;> grind [TaskStatus.dependenciesEditable]

theorem Landed.empty : Landed empty := by
  constructor <;> intros <;> contradiction

/-- Two integrated runs of one task: the later of them would have landed on a completed task. -/
theorem Landed.not_lands (hb : Landed b) {r r' : RunId} {v v' : RunView} (hold : b.run r = some v)
    (hs : v.status = .integrated) (ht : v'.taskId = v.taskId) : ¬Lands b b' r' v' := by
  intro hnew
  obtain ⟨w, hw, hws⟩ := hb.completed_of_integrated hold hs
  obtain ⟨w', hw', hws'⟩ := hnew.inProgress
  rw [ht, hw] at hw'
  cases hw'
  rw [hws] at hws'
  cases hws'

theorem Landed.step (hb : Landed b) (h : Step P b b') : Landed b' := by
  constructor
  · intro r v hv hs
    rcases h.integrated_cases hv hs with hold | hnew
    · obtain ⟨w, hw, hws⟩ := hb.completed_of_integrated hold hs
      exact h.completed hw hws
    · exact hnew.completed
  · intro t w hw hs
    rcases h.completed_cases hw hs with hold | hnew
    · obtain ⟨r, v, hv, ht, hvs⟩ := hb.integrated_of_completed hold hs
      exact ⟨r, v, h.integrated hv hvs, ht, hvs⟩
    · exact hnew
  · intro r r' v v' hv hv' ht hs hs'
    rcases h.integrated_cases hv hs with hold | hnew
    · rcases h.integrated_cases hv' hs' with hold' | hnew'
      · exact hb.unique hold hold' ht hs hs'
      · exact absurd hnew' (hb.not_lands hold hs ht.symm)
    · by_contra hne
      have hold' := hnew.others r' v' hv' (fun heq => hne heq.symm)
      exact hb.not_lands hold' hs' ht hnew
  · intro r v hv hs
    rcases h.integrated_cases hv hs with hold | hnew
    · exact hb.commit hold hs
    · exact hnew.commit

/-! ## A claimed task waits for nothing -/

/-- Everything the task waits for is done. -/
def IsSatisfied (b : Board) (t : TaskId) : Prop :=
  (∀ p, b.needs t p → ∃ w, b.task p = some w ∧ w.status = .completed) ∧
    ∀ g, b.needsGoal t g → b.goal g = some (some .achieved)

/-- A task in progress or completed waits for nothing that is not done. -/
def Satisfied (b : Board) : Prop :=
  ∀ t v, b.task t = some v → v.status = .inProgress ∨ v.status = .completed → b.IsSatisfied t

/-- A verdict is final. -/
theorem Step.verdict (h : Step P b b') {g : GoalId} {verdict : GoalVerdict}
    (hg : b.goal g = some (some verdict)) : b'.goal g = some (some verdict) := by
  cases h <;> simp <;> grind

/-- What was done stays done. -/
theorem IsSatisfied.step (h : Step P b b') {t : TaskId}
    (hneeds : ∀ p, b'.needs t p → b.needs t p) (hgoals : ∀ g, b'.needsGoal t g → b.needsGoal t g)
    (ht : b.IsSatisfied t) : b'.IsSatisfied t := by
  constructor
  · intro p hp
    obtain ⟨w, hw, hws⟩ := ht.1 p (hneeds p hp)
    exact h.completed hw hws
  · intro g hg
    exact h.verdict (ht.2 g (hgoals g hg))

/-- A task that a step leaves in progress or completed gains no edge by it, and was so before or had
everything it waits for done. -/
theorem Step.claimed_cases (h : Step P b b') {t : TaskId} {v : TaskView} (hv : b'.task t = some v)
    (hs : v.status = .inProgress ∨ v.status = .completed) :
    ((∀ p, b'.needs t p → b.needs t p) ∧ ∀ g, b'.needsGoal t g → b.needsGoal t g) ∧
      ((∃ w, b.task t = some w ∧ (w.status = .inProgress ∨ w.status = .completed)) ∨
        ((∀ p u, b.needs t p → b.task p = some u → u.status = .completed) ∧
          ∀ g verdict, b.needsGoal t g → b.goal g = some verdict → verdict = some .achieved)) := by
  cases h <;> simp at hv ⊢ <;> grind [TaskStatus.dependenciesEditable]

theorem Satisfied.empty : Satisfied empty := by
  intro t v hv
  cases hv

theorem Satisfied.step (hwf : WellFormed b) (hb : Satisfied b) (h : Step P b b') :
    Satisfied b' := by
  intro t v hv hs
  obtain ⟨⟨hneeds, hgoals⟩, hcases⟩ := h.claimed_cases hv hs
  apply IsSatisfied.step h hneeds hgoals
  rcases hcases with ⟨w, hw, hws⟩ | ⟨hdone, hachieved⟩
  · exact hb t w hw hws
  · -- The claim looks at the tasks and goals that exist; every edge leads to one.
    constructor
    · intro p hp
      obtain ⟨w, hw⟩ := Option.isSome_iff_exists.mp (hwf.needs_right hp)
      exact ⟨w, hw, hdone p w hp hw⟩
    · intro g hg
      obtain ⟨verdict, hverdict⟩ := Option.isSome_iff_exists.mp (hwf.needsGoal_right hg)
      rw [hverdict, hachieved g verdict hg hverdict]

/-! ## Nobody waits for itself -/

/-- The wait graph has no cycle. -/
def Ordered (b : Board) : Prop := Graph.Acyclic b.Waits

/-- A node without edges of its own leads nowhere. -/
theorem not_reaches_of_no_edge {x y : Node} (hx : ∀ z, ¬b.Waits x z) (hne : x ≠ y) :
    ¬ReflTransGen b.Waits x y := by
  intro h
  rcases ReflTransGen.cases_head h with heq | ⟨z, hxz, _⟩
  · exact hne heq
  · exact hx z hxz

theorem Ordered.empty : Ordered empty := by
  intro x hx
  obtain ⟨y, hxy, _⟩ := TransGen.head'_iff.mp hx
  cases hxy <;> contradiction

/-- What a step may do to the wait graph: drop edges, and add one whose target does not lead back to
its source. -/
def WaitsGrows (b b' : Board) : Prop :=
  (∀ ⦃x y⦄, b'.Waits x y → b.Waits x y) ∨
    ∃ x y, ¬ReflTransGen b.Waits y x ∧ ∀ ⦃u v⦄, b'.Waits u v → Graph.WithEdge b.Waits x y u v

/-- Rewriting one task touches no edge but the wait of its goal for it. -/
theorem Waits.of_setTask {t : TaskId} {v : TaskView} {x y : Node} (h : (b.setTask t v).Waits x y) :
    b.Waits x y ∨ ∃ g, v.goalId = some g ∧ x = .goal g ∧ y = .task t := by
  rcases h with hn | hn | ⟨hv, hg⟩
  · exact .inl (.predecessor hn)
  · exact .inl (.goal hn)
  · rw [setTask_task] at hv
    split_ifs at hv with ht
    · cases hv
      exact .inr ⟨_, hg, rfl, by rw [ht]⟩
    · exact .inl (.member hv hg)

/-- A task may be put into a goal it does not wait for. -/
theorem waitsGrows_setTask {t : TaskId} {v : TaskView}
    (hv : ∀ g, v.goalId = some g → ¬ReflTransGen b.Waits (.task t) (.goal g)) :
    WaitsGrows b (b.setTask t v) := by
  cases hg : v.goalId with
  | none =>
      left
      intro x y hxy
      rcases hxy.of_setTask with hold | ⟨g, hvg, _⟩
      · exact hold
      · rw [hg] at hvg
        cases hvg
  | some g =>
      refine .inr ⟨.goal g, .task t, hv g hg, ?_⟩
      intro x y hxy
      rcases hxy.of_setTask with hold | ⟨g', hvg, rfl, rfl⟩
      · exact .inl hold
      · rw [hg] at hvg
        cases hvg
        exact .inr ⟨rfl, rfl⟩

/-- A rewritten task that stays where it is adds no edge. -/
theorem waits_of_setTask_same {t : TaskId} {v w : TaskView} (hv : b.task t = some v)
    (hg : w.goalId = v.goalId) ⦃x y : Node⦄ (h : (b.setTask t w).Waits x y) : b.Waits x y := by
  rcases h.of_setTask with hold | ⟨g, hwg, rfl, rfl⟩
  · exact hold
  · exact .member hv (hg ▸ hwg)

theorem Step.waits (hwf : WellFormed b) (h : Step P b b') : WaitsGrows b b' := by
  cases h
  case addTask t goalId fresh goal =>
    -- The new task has no edge of its own yet, so it does not lead back to its goal.
    refine waitsGrows_setTask fun g _ => not_reaches_of_no_edge ?_ (by simp)
    rintro z (hn | hn)
    · exact absurd (hwf.needs_left hn) (by simp [fresh])
    · exact absurd (hwf.needsGoal_left hn) (by simp [fresh])
  case joinGoal t v goalId found editable goal =>
    exact waitsGrows_setTask fun g hg => (goal g hg).2
  case need t p v w found other editable acyclic =>
    refine .inr ⟨.task t, .task p, acyclic, ?_⟩
    rintro x y (hn | hn | ⟨hv, hg⟩)
    · rcases hn with hn | ⟨rfl, rfl⟩
      · exact .inl (.predecessor hn)
      · exact .inr ⟨rfl, rfl⟩
    · exact .inl (.goal hn)
    · exact .inl (.member hv hg)
  case needGoal t g v verdict found goal editable acyclic =>
    refine .inr ⟨.task t, .goal g, acyclic, ?_⟩
    rintro x y (hn | hn | ⟨hv, hg⟩)
    · exact .inl (.predecessor hn)
    · rcases hn with hn | ⟨rfl, rfl⟩
      · exact .inl (.goal hn)
      · exact .inr ⟨rfl, rfl⟩
    · exact .inl (.member hv hg)
  case unneed t p =>
    left
    rintro x y (hn | hn | ⟨hv, hg⟩)
    · exact .predecessor hn.1
    · exact .goal hn
    · exact .member hv hg
  case unneedGoal t g =>
    left
    rintro x y (hn | hn | ⟨hv, hg⟩)
    · exact .predecessor hn
    · exact .goal hn.1
    · exact .member hv hg
  case moveTask t v status found source target idle => exact .inl (waits_of_setTask_same found rfl)
  case claim t r v w found ready idle needs goals fresh view =>
    left
    intro x y hxy
    refine waits_of_setTask_same found (w := { v with status := .inProgress }) rfl ?_
    rcases hxy with hn | hn | ⟨hv, hg⟩
    · exact .predecessor hn
    · exact .goal hn
    · exact .member hv hg
  case finishLanding r v w commit found source task inProgress =>
    left
    intro x y hxy
    refine waits_of_setTask_same task (w := { w with status := .completed }) rfl ?_
    rcases hxy with hn | hn | ⟨hv, hg⟩
    · exact .predecessor hn
    · exact .goal hn
    · exact .member hv hg
  all_goals
    -- The other steps touch neither tasks nor edges.
    left
    rintro x y (hn | hn | ⟨hv, hg⟩)
    · exact .predecessor hn
    · exact .goal hn
    · exact .member hv hg

theorem Ordered.step (hwf : WellFormed b) (hb : Ordered b) (h : Step P b b') : Ordered b' := by
  rcases h.waits hwf with hsub | ⟨x, y, hyx, hsub⟩
  · exact Graph.Acyclic.mono hb hsub
  · exact (Graph.Acyclic.withEdge hb hyx).mono hsub

/-! ## A run that waits to land was accepted -/

/-- A run that waits to land, or whose landing began from there, has a commit on record, the one its
latest validation accepted. -/
def Accepted (b : Board) : Prop :=
  ∀ r v, b.run r = some v →
    (v.status = .awaitingIntegration ∨
      (v.status = .integrating ∧ v.landedFrom = some .awaitingIntegration)) →
    v.resultCommit.isSome = true ∧ v.accepted = some v.resultCommit

theorem Accepted.empty : Accepted empty := by
  intro r v hv
  cases hv

/-- Accepted runs stay accepted when only a landing that began from `awaitingIntegration` is called
off to it. -/
theorem Accepted.step
    (hP : ∀ b r, P.callOff b r → ∀ v, b.run r = some v → v.landedFrom = some .awaitingIntegration)
    (hb : Accepted b) (h : Step P b b') : Accepted b' := by
  intro r v hv hs
  cases h <;> simp at hv
  case validate r' v' status commit accepted found source accept reject =>
    grind [Accepted]
  case callOff r' v' found source allowed =>
    have hfrom := hP b r' allowed v' found
    grind [Accepted]
  all_goals grind [Accepted, isWorkTarget]

/-- A landing under way began from one of the two statuses a run may land from. -/
def Slotted (b : Board) : Prop :=
  ∀ r v, b.run r = some v → v.status = .integrating →
    v.landedFrom = some .awaitingIntegration ∨ v.landedFrom = some .needsSession

theorem Slotted.empty : Slotted empty := by
  intro r v hv
  cases hv

theorem Slotted.step (hb : Slotted b) (h : Step P b b') : Slotted b' := by
  intro r v hv hs
  cases h <;> simp at hv <;> grind [Slotted, isWorkTarget]

end Dagq.Board
