/-
# Dagq.Store.Unblocks -- what the graph says, told without its computation.

`Releases` is the dependency itself: an unfinished task and one that waits for it, as a successor or for
a goal of it that is not closed.  Everything the graph shows follows from that relation: how many tasks
wait, whose priority a task inherits, which claimable task comes first and where the critical chain goes.
-/
import Dagq.Store.DependencyGraph
import Mathlib.Data.Set.Card

namespace Dagq.Listing

open Lib

/-! ## Who waits for whom -/

section Input

variable (input : GraphInput)

/-- `b` waits for the unfinished `a` directly. -/
def Releases (a b : TaskId) : Prop :=
  ∃ waiter ∈ input.tasks, waiter.id = b ∧ ∃ task ∈ input.tasks, task.id = a ∧
    (a ∈ waiter.dependsOn ∨
      ∃ d ∈ waiter.goalDependencies, d.verdict = none ∧ task.goalId = some d.goalId)

/-- The tasks that wait for `id`, over any number of tasks and goals. -/
def Waiting (id : TaskId) : Set TaskId := {w | Relation.TransGen (Releases input) id w}

/-- How many tasks wait for `id`. -/
noncomputable def waitingCount (id : TaskId) : Nat := (Waiting input id).ncard

/-- `task` passes its priority on to `id`: it is the task itself, or a ready one outside a draft goal
that waits for it. -/
def Raises (id : TaskId) (task : GraphTask) : Prop :=
  task.id = id ∨
    (task.id ∈ Waiting input id ∧ task.status = .ready ∧ task.goalStatus ≠ some .draft)

/-- `priority` is the highest that is passed on to `id`; what is not there has the normal one. -/
def HasEffective (id : TaskId) (priority : Priority) : Prop :=
  if id ∈ input.tasks.map (·.id) then
    (∃ task ∈ input.tasks, Raises input id task ∧ task.priority = priority) ∧
      ∀ task ∈ input.tasks, Raises input id task → task.priority.asI64 ≤ priority.asI64
  else priority = .normal

/-- `a` is claimed before `b`: by the effective priority, then by the tasks waiting, then by the id. -/
def ClaimedBefore (a b : TaskId) : Prop :=
  ∃ p q, HasEffective input a p ∧ HasEffective input b q ∧
    (q.asI64 < p.asI64 ∨ (p = q ∧
      (waitingCount input b < waitingCount input a ∨
        (waitingCount input a = waitingCount input b ∧ a ≤ b))))

/-- A task of the filter. -/
def InFilter (goalId : Option GoalId) (id : TaskId) : Prop :=
  ∃ task ∈ input.tasks, task.id = id ∧ (goalId = none ∨ task.goalId = goalId)

instance (goalId : Option GoalId) (id : TaskId) : Decidable (InFilter input goalId id) :=
  inferInstanceAs (Decidable (∃ task ∈ input.tasks, _))

/-- What the dependency view shows. -/
structure GraphView (goalId : Option GoalId) (graph : DependencyGraph) : Prop where
  nodes : ∀ id, id ∈ graph.tasks.map (·.id) ↔ InFilter input goalId id
  unblocks : ∀ node ∈ graph.tasks, node.unblocks = waitingCount input node.id
  effectivePriority : ∀ node ∈ graph.tasks, HasEffective input node.id node.effectivePriority
  candidates : graph.candidates.Perm
    (input.candidates.filter fun id => goalId = none ∨ InFilter input goalId id)
  candidates_sorted : graph.candidates.Pairwise (ClaimedBefore input)
  critical_empty : graph.critical = [] ↔
    ∀ a, InFilter input goalId a → ∀ b, ¬Releases input a b
  critical_start : ∀ a ∈ graph.critical.head?, InFilter input goalId a ∧
    ∀ b, InFilter input goalId b → waitingCount input b ≤ waitingCount input a
  critical_steps : graph.critical.IsChain fun a b =>
    Releases input a b ∧ waitingCount input b < waitingCount input a
  critical_end : ∀ a ∈ graph.critical.getLast?, ∀ b, ¬Releases input a b

end Input

variable {input : GraphInput} {id a b w : TaskId} {goalId : Option GoalId}

/-! ## The computed graph -/

theorem releases_open (h : Releases input a b) : a ∈ openTasks input ∧ b ∈ openTasks input := by
  obtain ⟨waiter, hwaiter, rfl, task, htask, rfl, _⟩ := h
  exact ⟨List.mem_map_of_mem htask, List.mem_map_of_mem hwaiter⟩

theorem mem_direct_iff : w ∈ direct input id ↔ Releases input id w := by
  simp only [direct, mem_sorted, List.mem_map, List.mem_filter, waitsOn, Bool.or_eq_true,
    Bool.and_eq_true, decide_eq_true_eq, List.any_eq_true, Option.isNone_iff_eq_none]
  constructor
  · rintro ⟨waiter, ⟨hwaiter, hwaits⟩, rfl⟩
    refine ⟨waiter, hwaiter, rfl, ?_⟩
    rcases hwaits with ⟨hdep, hopen⟩ | ⟨d, hd, hverdict, hmember⟩
    · obtain ⟨task, htask, rfl⟩ := List.mem_map.mp hopen
      exact ⟨task, htask, rfl, .inl hdep⟩
    · obtain ⟨task, hin, rfl⟩ := List.mem_map.mp hmember
      obtain ⟨htask, hgoal⟩ := List.mem_filter.mp hin
      exact ⟨task, htask, rfl, .inr ⟨d, hd, hverdict, of_decide_eq_true hgoal⟩⟩
  · rintro ⟨waiter, hwaiter, rfl, task, htask, rfl, hwaits⟩
    refine ⟨waiter, ⟨hwaiter, ?_⟩, rfl⟩
    rcases hwaits with hdep | ⟨d, hd, hverdict, hgoal⟩
    · exact .inl ⟨hdep, List.mem_map_of_mem htask⟩
    · refine .inr ⟨d, hd, hverdict, List.mem_map_of_mem (List.mem_filter.mpr ⟨htask, ?_⟩)⟩
      exact decide_eq_true hgoal

theorem mem_reached_iff : w ∈ reached input id ↔ w ∈ Waiting input id := by
  have hedge : (fun a b => b ∈ direct input a) = Releases input := by
    funext a b
    exact propext mem_direct_iff
  rw [mem_reached_direct, hedge]
  rfl

theorem waiting_subset_open (h : w ∈ Waiting input id) : w ∈ openTasks input := by
  obtain ⟨_, _, hlast⟩ := Relation.TransGen.tail'_iff.mp h
  exact (releases_open hlast).2

theorem open_of_waiting (h : w ∈ Waiting input id) : id ∈ openTasks input := by
  obtain ⟨_, hfirst, _⟩ := Relation.TransGen.head'_iff.mp h
  exact (releases_open hfirst).1

theorem waiting_finite (id : TaskId) : (Waiting input id).Finite :=
  (List.finite_toSet (openTasks input)).subset fun _ => waiting_subset_open

/-- Each waiter is reached once, whatever paths lead to it. -/
theorem length_reached : (reached input id).length = waitingCount input id := by
  have hset : Waiting input id = ((reached input id).toFinset : Set TaskId) := by
    ext w
    rw [List.coe_toFinset]
    exact mem_reached_iff.symm
  have hnodup : (reached input id).Nodup := sorted_nodup
  rw [waitingCount, hset, Set.ncard_coe_finset, List.toFinset_card_of_nodup hnodup]

theorem byIdOf_isSome : (byIdOf input id).isSome ↔ id ∈ openTasks input := by
  simp [byIdOf, openTasks, List.find?_isSome]

theorem count_eq : count input id = waitingCount input id := by
  by_cases hopen : id ∈ openTasks input
  · rw [count, if_pos (byIdOf_isSome.mpr hopen), length_reached]
  · rw [count, if_neg (mt byIdOf_isSome.mp hopen)]
    have hnone : Waiting input id = ∅ :=
      Set.eq_empty_iff_forall_notMem.mpr fun w hw => hopen (open_of_waiting hw)
    rw [waitingCount, hnone, Set.ncard_empty]

/-- With distinct ids an id finds its task. -/
theorem byIdOf_eq (hids : (input.tasks.map (·.id)).Nodup) {task : GraphTask} :
    byIdOf input id = some task ↔ task ∈ input.tasks ∧ task.id = id := by
  have hfound {t : GraphTask} (h : byIdOf input id = some t) : t ∈ input.tasks ∧ t.id = id :=
    ⟨List.mem_of_find?_eq_some h, by simpa using List.find?_some h⟩
  refine ⟨hfound, ?_⟩
  rintro ⟨htask, rfl⟩
  obtain ⟨t, ht⟩ := Option.isSome_iff_exists.mp
    (byIdOf_isSome.mpr (List.mem_map_of_mem htask))
  obtain ⟨hin, hid⟩ := hfound ht
  rw [ht, List.inj_on_of_nodup_map hids hin htask hid]

/-! ## Effective priorities -/

theorem foldl_highest_mem (ps : List Priority) (own : Priority) :
    ps.foldl highest own ∈ own :: ps := by
  induction ps generalizing own with
  | nil => exact List.mem_singleton_self own
  | cons p ps ih =>
      rw [List.foldl_cons]
      rcases List.mem_cons.mp (ih (highest own p)) with heq | hmem
      · rw [heq, highest]
        split
        · exact List.mem_cons_of_mem own List.mem_cons_self
        · exact List.mem_cons_self
      · exact List.mem_cons_of_mem own (List.mem_cons_of_mem p hmem)

theorem le_foldl_highest {ps : List Priority} {own p : Priority} (h : p ∈ own :: ps) :
    p.asI64 ≤ (ps.foldl highest own).asI64 := by
  rw [asI64_foldl_highest]
  obtain ⟨hown, hps⟩ := foldl_max_le_iff.mp (Nat.le_refl ((ps.map Priority.asI64).foldl max own.asI64))
  rcases List.mem_cons.mp h with rfl | h
  · exact hown
  · exact hps _ (List.mem_map_of_mem h)

/-- The priorities that are passed on to a task are those of the waiters the graph filters. -/
theorem mem_raising (hids : (input.tasks.map (·.id)).Nodup) {task : GraphTask}
    (htask : task ∈ input.tasks) {p : Priority} :
    p ∈ task.priority :: ((((reached input task.id).filterMap (byIdOf input)).filter fun waiter =>
        waiter.status = .ready && waiter.goalStatus != some .draft).map (·.priority)) ↔
      ∃ t ∈ input.tasks, Raises input task.id t ∧ t.priority = p := by
  simp only [List.mem_cons, List.mem_map, List.mem_filter, List.mem_filterMap, byIdOf_eq hids,
    mem_reached_iff, Bool.and_eq_true, decide_eq_true_eq, bne_iff_ne, Raises]
  constructor
  · rintro (rfl | ⟨t, ⟨⟨_, hwaiting, ht, rfl⟩, hready, hgoal⟩, rfl⟩)
    · exact ⟨task, htask, .inl rfl, rfl⟩
    · exact ⟨t, ht, .inr ⟨hwaiting, hready, hgoal⟩, rfl⟩
  · rintro ⟨t, ht, hid | ⟨hwaiting, hready, hgoal⟩, rfl⟩
    · rw [List.inj_on_of_nodup_map hids ht htask hid]
      exact .inl rfl
    · exact .inr ⟨t, ⟨⟨t.id, hwaiting, ht, rfl⟩, hready, hgoal⟩, rfl⟩

theorem hasEffective (hids : (input.tasks.map (·.id)).Nodup) (id : TaskId) :
    HasEffective input id (effective input id) := by
  unfold HasEffective
  split_ifs with hopen
  · obtain ⟨task, htask, rfl⟩ := List.mem_map.mp hopen
    have hfound : byIdOf input task.id = some task := (byIdOf_eq hids).mpr ⟨htask, rfl⟩
    rw [effective, hfound]
    refine ⟨(mem_raising hids htask).mp (foldl_highest_mem _ _), fun t ht hraises => ?_⟩
    exact le_foldl_highest ((mem_raising hids htask).mpr ⟨t, ht, hraises, rfl⟩)
  · have hnone : byIdOf input id = none :=
      Option.not_isSome_iff_eq_none.mp (mt byIdOf_isSome.mp hopen)
    rw [effective, hnone]

theorem claimedBefore_of_le (hids : (input.tasks.map (·.id)).Nodup)
    (h : (claimRank input a).le (claimRank input b) = true) : ClaimedBefore input a b := by
  refine ⟨effective input a, effective input b, hasEffective hids a, hasEffective hids b, ?_⟩
  rw [claimRank_le_iff, count_eq, count_eq] at h
  exact h.imp_right fun ⟨heq, hrest⟩ => ⟨asI64_inj heq, hrest⟩

theorem graphCandidates_sorted (hids : (input.tasks.map (·.id)).Nodup) (goalId : Option GoalId) :
    (graphCandidates input goalId).Pairwise (ClaimedBefore input) := by
  have : Std.Total fun a b : Nat => (claimRank input a).le (claimRank input b) = true :=
    ⟨fun a b => by rw [claimRank_le_iff, claimRank_le_iff]; omega⟩
  have : IsTrans Nat fun a b => (claimRank input a).le (claimRank input b) = true :=
    ⟨fun a b c => by rw [claimRank_le_iff, claimRank_le_iff, claimRank_le_iff]; omega⟩
  have hsorted := List.pairwise_insertionSort
    (fun a b => (claimRank input a).le (claimRank input b) = true)
    (input.candidates.filter fun id => goalId.isNone || id ∈ goalIds input goalId)
  exact hsorted.imp (claimedBefore_of_le hids)

theorem inGoal_iff {task : GraphTask} :
    inGoal goalId task = true ↔ goalId = none ∨ task.goalId = goalId := by
  rw [inGoal, Bool.or_eq_true, Option.isNone_iff_eq_none, decide_eq_true_eq]

theorem mem_goalIds : id ∈ goalIds input goalId ↔ InFilter input goalId id := by
  rw [goalIds, mem_sorted, List.mem_map]
  constructor
  · rintro ⟨task, hin, rfl⟩
    obtain ⟨htask, hgoal⟩ := List.mem_filter.mp hin
    exact ⟨task, htask, rfl, inGoal_iff.mp hgoal⟩
  · rintro ⟨task, htask, rfl, hgoal⟩
    exact ⟨task, List.mem_filter.mpr ⟨htask, inGoal_iff.mpr hgoal⟩, rfl⟩

theorem graphCandidates_perm (goalId : Option GoalId) : (graphCandidates input goalId).Perm
    (input.candidates.filter fun id => goalId = none ∨ InFilter input goalId id) := by
  have hsame : (input.candidates.filter fun id => goalId.isNone || id ∈ goalIds input goalId) =
      input.candidates.filter fun id => goalId = none ∨ InFilter input goalId id := by
    refine List.filter_congr fun id _ => ?_
    rw [Bool.eq_iff_iff, Bool.or_eq_true, Option.isNone_iff_eq_none, decide_eq_true_eq,
      decide_eq_true_eq, mem_goalIds]
  rw [← hsame]
  exact List.perm_insertionSort _ _

/-! ## The critical chain -/

section Chain

/-- Something is there to choose from, and nothing in it has more waiters. -/
theorem mostUnblocks_spec {ids : List TaskId} (h : mostUnblocks input ids = some a) :
    a ∈ ids ∧ ∀ b ∈ ids, waitingCount input b ≤ waitingCount input a := by
  have : Std.Total fun a b : Nat =>
      count input b < count input a ∨ (count input a = count input b ∧ a ≤ b) :=
    ⟨fun a b => by omega⟩
  have : IsTrans Nat fun a b =>
      count input b < count input a ∨ (count input a = count input b ∧ a ≤ b) :=
    ⟨fun a b c => by omega⟩
  refine ⟨mostUnblocks_mem h, fun b hb => ?_⟩
  obtain ⟨rest, hsort⟩ := List.head?_eq_some_iff.mp h
  have hsorted := List.pairwise_insertionSort
    (fun a b : Nat => count input b < count input a ∨ (count input a = count input b ∧ a ≤ b)) ids
  rw [hsort, List.pairwise_cons] at hsorted
  rw [← List.mem_insertionSort
    (fun a b : Nat => count input b < count input a ∨ (count input a = count input b ∧ a ≤ b)),
    hsort] at hb
  rw [← count_eq, ← count_eq]
  rcases List.mem_cons.mp hb with rfl | hb
  · exact Nat.le_refl _
  · have hfirst := hsorted.1 b hb
    omega

theorem mostUnblocks_eq_none {ids : List TaskId} (h : mostUnblocks input ids = none) : ids = [] := by
  rw [mostUnblocks, List.head?_eq_none_iff] at h
  have hperm := List.perm_insertionSort
    (fun a b : Nat => count input b < count input a ∨ (count input a = count input b ∧ a ≤ b)) ids
  rw [h] at hperm
  exact List.nil_perm.mp hperm

/-- Whoever waits for the released task waits for the releasing one, and so does that task itself. -/
theorem waitingCount_lt (hacyclic : Graph.Acyclic (Releases input)) (h : Releases input a b) :
    waitingCount input b < waitingCount input a := by
  have hsubset : Waiting input b ⊂ Waiting input a := by
    refine ⟨fun w hw => Relation.TransGen.head h hw, fun hback => ?_⟩
    have hself : b ∈ Waiting input a := .single h
    exact hacyclic b (hback hself)
  exact Set.ncard_lt_ncard hsubset (waiting_finite a)

theorem waitingCount_eq_zero : waitingCount input a = 0 ↔ ∀ b, ¬Releases input a b := by
  rw [waitingCount, Set.ncard_eq_zero (waiting_finite a), Set.eq_empty_iff_forall_notMem]
  constructor
  · exact fun h b hb => h b (.single hb)
  · intro h w hw
    obtain ⟨b, hb, _⟩ := Relation.TransGen.head'_iff.mp hw
    exact h b hb

theorem step_releases (h : nextStep input a = some b) : Releases input a b :=
  mem_direct_iff.mp (nextStep_direct h)

theorem nextStep_none (h : nextStep input a = none) (b : TaskId) : ¬Releases input a b := by
  intro hb
  have hnil : direct input a = [] := mostUnblocks_eq_none h
  rw [← mem_direct_iff, hnil] at hb
  exact List.not_mem_nil hb

theorem firstStep_spec (h : firstStep input goalId = some a) : InFilter input goalId a ∧
    ∀ b, InFilter input goalId b → waitingCount input b ≤ waitingCount input a := by
  obtain ⟨hmost, _⟩ := Option.filter_eq_some_iff.mp h
  obtain ⟨hmem, hmax⟩ := mostUnblocks_spec hmost
  exact ⟨mem_goalIds.mp hmem, fun b hb => hmax b (mem_goalIds.mpr hb)⟩

/-- The chain starts nowhere when the one with the most waiters has none. -/
theorem firstStep_eq_none : firstStep input goalId = none ↔
    ∀ a, InFilter input goalId a → ∀ b, ¬Releases input a b := by
  simp only [← mem_goalIds, ← waitingCount_eq_zero]
  rw [firstStep, Option.filter_eq_none_iff]
  constructor
  · intro h a ha
    cases hmost : mostUnblocks input (goalIds input goalId) with
    | none =>
        rw [mostUnblocks_eq_none hmost] at ha
        exact absurd ha List.not_mem_nil
    | some top =>
        have hzero : count input top = 0 := by simpa using h top hmost
        have hle := (mostUnblocks_spec hmost).2 a ha
        rw [← count_eq, ← count_eq, hzero] at hle
        rw [← count_eq]
        exact Nat.le_zero.mp hle
  · intro h top hmost
    have hzero := h top (mostUnblocks_mem hmost)
    rw [← count_eq] at hzero
    simpa using hzero

end Chain

/-! ## The view -/

/-- Of any read without a cycle the graph shows the dependencies it holds: how many tasks wait over any
path, the highest priority passed on, the claimable tasks in order and a chain that ends. -/
theorem graph_shows_waiting (input : GraphInput) (hids : (input.tasks.map (·.id)).Nodup)
    (hacyclic : Graph.Acyclic (Releases input)) (goalId : Option GoalId) (fuel : Nat)
    (hfuel : input.tasks.length < fuel) : ∃ graph, dependencyGraph input fuel goalId = some graph ∧
      GraphView input goalId graph := by
  have hends := follow_ends (hacyclic.mono fun _ _ => mem_direct_iff.mp) goalId hfuel
  obtain ⟨critical, hcritical⟩ := Option.isSome_iff_exists.mp hends
  obtain ⟨hhead, hchain, hlast⟩ := Walk.follow_spec hcritical
  refine ⟨_, by rw [dependencyGraph, hcritical]; rfl, ?_⟩
  -- A node shows the counts of its own task.
  have hnode {node : GraphNode} (h : node ∈ (input.tasks.filter fun task =>
      task.id ∈ goalIds input goalId).map (graphNode input)) :
      node.unblocks = count input node.id ∧ node.effectivePriority = effective input node.id := by
    obtain ⟨task, _, rfl⟩ := List.mem_map.mp h
    exact ⟨rfl, rfl⟩
  constructor
  case nodes =>
    intro id
    rw [← mem_goalIds, List.map_map, List.mem_map]
    constructor
    · rintro ⟨task, htask, rfl⟩
      exact of_decide_eq_true (List.mem_filter.mp htask).2
    · intro hid
      obtain ⟨task, htask, rfl, _⟩ := mem_goalIds.mp hid
      exact ⟨task, List.mem_filter.mpr ⟨htask, decide_eq_true hid⟩, rfl⟩
  case unblocks => exact fun node hin => (hnode hin).1.trans count_eq
  case effectivePriority =>
    intro node hin
    rw [(hnode hin).2]
    exact hasEffective hids node.id
  case candidates => exact graphCandidates_perm goalId
  case candidates_sorted => exact graphCandidates_sorted hids goalId
  case critical_empty =>
    show critical = [] ↔ _
    rw [← firstStep_eq_none, ← hhead, List.head?_eq_none_iff]
  case critical_start =>
    show ∀ a ∈ critical.head?, _
    rw [hhead]
    exact fun a ha => firstStep_spec ha
  case critical_steps =>
    show critical.IsChain _
    refine hchain.imp fun a b hstep => ?_
    exact ⟨step_releases hstep, waitingCount_lt hacyclic (step_releases hstep)⟩
  case critical_end => exact fun a ha => nextStep_none (hlast a ha)

/-- A diamond: 1 releases 2 and 3, and 4 waits for 2 and for the goal 3 belongs to. -/
def diamond : GraphInput where
  tasks :=
    [{ id := 1, status := .ready, priority := .low, title := "base", goalId := none,
       goalStatus := none, dependsOn := [], goalDependencies := [] },
     { id := 2, status := .ready, priority := .normal, title := "left", goalId := none,
       goalStatus := none, dependsOn := [1], goalDependencies := [] },
     { id := 3, status := .ready, priority := .normal, title := "right", goalId := some 7,
       goalStatus := some .open, dependsOn := [1], goalDependencies := [] },
     { id := 4, status := .ready, priority := .high, title := "top", goalId := none,
       goalStatus := none, dependsOn := [2], goalDependencies := [{ goalId := 7, verdict := none }] }]
  candidates := [1]

theorem graph_shows_waiting_diamond : ∃ graph, dependencyGraph diamond 5 none = some graph ∧
    GraphView diamond none graph := by
  refine graph_shows_waiting diamond (by decide) (fun a ha => ?_) none 5 (by decide)
  have hlt : ∀ b, Relation.TransGen (Releases diamond) a b → a < b := by
    have hone : ∀ b c, Releases diamond b c → b < c := by
      intro b c hbc
      rw [← mem_direct_iff] at hbc
      have hopen := (releases_open (mem_direct_iff.mp hbc)).1
      have hall : ∀ x ∈ openTasks diamond, ∀ y ∈ direct diamond x, x < y := by decide
      exact hall b hopen c hbc
    intro b hb
    induction hb with
    | single h => exact hone _ _ h
    | tail _ h ih => exact Nat.lt_trans ih (hone _ _ h)
  exact Nat.lt_irrefl a (hlt a ha)

end Dagq.Listing
